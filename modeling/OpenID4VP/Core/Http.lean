import OpenID4VP.Crates
import OpenID4VP.Core.Error

/-! # HTTP requests and responses -/

namespace OpenID4VP

def mimeTypeJson : String := "application/json"
def mimeTypeFormUrlencoded : String := "application/x-www-form-urlencoded"
def mimeTypeOauthReqJwt : String := "application/oauth-authz-req+jwt"
def mimeTypeOauthReqJwtShort : String := "oauth-authz-req+jwt"

inductive Method
  | get | post
  deriving DecidableEq

structure Request where
  method : Method
  uri : String
  headers : List (String × String)
  body : ByteArray

structure Response where
  status : UInt16
  body : ByteArray

namespace Response

def isSuccess (r : Response) : Bool := 200 ≤ r.status && r.status < 300

end Response

variable [UrlCrate] [HttpCrate]

/-- The URI of a request, as text. -/
def requestUri (url : Url) : Except Anyhow String :=
  if HttpCrate.isUri (UrlCrate.toString url) then return UrlCrate.toString url
  else withContext "could not parse request uri" (throw (.library "http"))

def createPostRequest (url : Url) (body : ByteArray) (contentType accept : String) :
    Except Anyhow Request := do
  return ⟨.post, ← requestUri url, [("content-type", contentType), ("accept", accept)], body⟩

/-- A request is created for every URL that is the URI of one. -/
theorem exists_createPostRequest {url : Url} (h : HttpCrate.isUri (UrlCrate.toString url) = true)
    (body : ByteArray) (contentType accept : String) :
    ∃ request, createPostRequest url body contentType accept = .ok request ∧
      request.body = body := by
  rw [createPostRequest, requestUri, if_pos h]
  exact ⟨_, rfl, rfl⟩

def createGetRequest (url : Url) (accept : String) : Except Anyhow Request := do
  return ⟨.get, ← requestUri url, [("accept", accept)], .empty⟩

end OpenID4VP
