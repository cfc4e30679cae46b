import OpenID4VP.Lib.Prog

/-! # Errors

An `Error` is internal, or one that the protocol reports to the other party. Internal errors are
those of `anyhow`: a message, an error of a library, or either with a context. -/

namespace OpenID4VP

inductive ErrorType
  | invalidScope | invalidRequest | invalidClient | accessDenied | vpFormatsNotSupported
  | invalidPresentationDefinitionUri | invalidPresentationDefinitionReference
  | invalidPresentationDefinitionFormat | invalidRequestUriMethod | walletUnavailable
  | invalidDCQLFormat | clientIDPrefixNotGiven | invalidTransactionData | wrongClientIdPrefix
  deriving DecidableEq

mutual
inductive Anyhow
  | msg (message : String)
  /-- An error of the library of that name. -/
  | library (name : String)
  | context (message : String) (source : Anyhow)
  | core (e : Error)

inductive Error
  | internal (e : Anyhow)
  | protocol (type : ErrorType) (description : Option String) (state : Option String)
    (source : Option Anyhow)
end

def ErrorType.toString : ErrorType → String
  | invalidScope => "invalid_scope"
  | invalidRequest => "invalid_request"
  | invalidClient => "invalid_client"
  | accessDenied => "access_denied"
  | vpFormatsNotSupported => "vp_formats_not_supported"
  | invalidPresentationDefinitionUri => "invalid_presentation_definition_uri"
  | invalidPresentationDefinitionReference => "invalid_presentation_definition_reference"
  | invalidPresentationDefinitionFormat => "invalid_presentation_definition_format"
  | invalidRequestUriMethod => "invalid_request_uri_method"
  | walletUnavailable => "wallet_unavailable"
  | invalidDCQLFormat => "invalid_dcql_format"
  | clientIDPrefixNotGiven => "client_id_prefix_not_given"
  | wrongClientIdPrefix => "wrong_client_id_prefix"
  | invalidTransactionData => "invalid_transaction_data"

mutual
/-- The text of an error. That of a library's error is the library's own, and its name stands for
it here. -/
def Anyhow.toString : Anyhow → String
  | .msg message => message
  | .library name => name
  | .context message _ => message
  | .core e => e.toString

-- only debug builds add the source of a protocol error to its text
def Error.toString : Error → String
  | .internal e => e.toString
  | .protocol type description state _ =>
    type.toString ++ ":" ++ description.getD "" ++ ":" ++ state.getD ""
end

namespace Error

def protocolInvalidReq (description : String) (state : Option String) : Error :=
  protocol .invalidRequest (some description) state none

def protocolVpFormatsNotSupported (description : String) (state : Option String) : Error :=
  protocol .vpFormatsNotSupported (some description) state none

def protocolAccessDenied (description : String) (state : Option String) : Error :=
  protocol .accessDenied (some description) state none

def addSource (e : Error) (source : Anyhow) : Error :=
  match e with
  | protocol type description state _ => protocol type description state (some source)
  | internal e => internal e

/-- The error with a context, which makes an `anyhow` error of it. -/
def context (message : String) (e : Error) : Error := .internal (.context message (.core e))

end Error

/-- The result with `anyhow` errors turned into internal ones, as `?` does. -/
def orInternal (x : Except Anyhow α) : Except Error α := x.mapError .internal

@[simp] theorem orInternal_eq_ok_iff {x : Except Anyhow α} {a : α} :
    orInternal x = .ok a ↔ x = .ok a :=
  Except.mapError_eq_ok_iff

@[simp] theorem orInternal_ok {a : α} : orInternal (.ok a) = .ok a := rfl

/-- Fail unless a condition holds. -/
def ensure (condition : Bool) (e : ε) : Except ε Unit :=
  if condition then return () else throw e

@[simp] theorem ensure_eq_ok_iff {condition : Bool} {e : ε} {u : Unit} :
    ensure condition e = .ok u ↔ condition = true := by
  cases condition <;> simp [ensure]

/-- The value, or the error where there is none. -/
def okOr (e : ε) : Option α → Except ε α
  | some a => .ok a
  | none => .error e

@[simp] theorem okOr_eq_ok_iff {e : ε} {x : Option α} {a : α} :
    okOr e x = .ok a ↔ x = some a := by
  cases x <;> simp [okOr]

/-- A result with a context for its failure. -/
def withContext (message : String) (x : Except Anyhow α) : Except Anyhow α :=
  x.mapError (.context message)

@[simp] theorem withContext_eq_ok_iff {message : String} {x : Except Anyhow α} {a : α} :
    withContext message x = .ok a ↔ x = .ok a :=
  Except.mapError_eq_ok_iff

end OpenID4VP
