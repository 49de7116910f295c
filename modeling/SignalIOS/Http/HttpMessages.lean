import Mathlib.Data.List.AList
import SignalIOS.Util.NSString

/-! HTTP requests and responses, and the bytes they are sent as. -/
namespace SignalIOS.Http

/-- An `NSDictionary` of strings. The order of the entries is that of its enumeration. -/
abbrev Headers := AList fun _ : NSString => NSString

def contentLengthKey : NSString := "Content-Length".toList

/-- The factories see to it that `Content-Length` is the length of the body. -/
structure HttpRequest where
  method : NSString
  location : NSString
  optionalBody : Option NSString
  headers : Headers
  contentLength : headers.lookup contentLengthKey =
    optionalBody.map fun body => .ofNumber body.utf16Length

namespace HttpRequest

/-- What is required of body and headers makes `Content-Length` the length of the body. -/
theorem lookup_of_required {headers : Headers} {optionalBody : Option NSString} :
    (optionalBody = none ↔ headers.lookup contentLengthKey = none) ∧
      (∀ body ∈ optionalBody,
        headers.lookup contentLengthKey = some (.ofNumber body.utf16Length)) ↔
    headers.lookup contentLengthKey =
      optionalBody.map fun body => .ofNumber body.utf16Length := by
  cases optionalBody <;> simp +contextual

def httpRequestWithMethod (method location : NSString) (headers : Headers)
    (optionalBody : Option NSString) : Throws HttpRequest :=
  if h : (optionalBody = none ↔ headers.lookup contentLengthKey = none) ∧
      ∀ body ∈ optionalBody, headers.lookup contentLengthKey = some (.ofNumber body.utf16Length)
  then .ok ⟨method, location, optionalBody, headers, lookup_of_required.mp h⟩
  else .error .badArgument

section
variable {method location : NSString} {headers : Headers} {optionalBody : Option NSString}

theorem httpRequestWithMethod_of_eq
    (h : headers.lookup contentLengthKey =
      optionalBody.map fun body => .ofNumber body.utf16Length) :
    httpRequestWithMethod method location headers optionalBody =
      .ok ⟨method, location, optionalBody, headers, h⟩ :=
  dif_pos (lookup_of_required.mpr h)

theorem httpRequestWithMethod_of_ne
    (h : headers.lookup contentLengthKey ≠
      optionalBody.map fun body => .ofNumber body.utf16Length) :
    httpRequestWithMethod method location headers optionalBody = .error .badArgument :=
  dif_neg fun hrequired => h (lookup_of_required.mp hrequired)

end

/-- The headers of a request that is not authenticated. -/
def contentHeaders (optionalBody : Option NSString) : Headers :=
  match optionalBody with
  | none => ∅
  | some body => AList.insert contentLengthKey (.ofNumber body.utf16Length) ∅

theorem lookup_contentHeaders (optionalBody : Option NSString) :
    (contentHeaders optionalBody).lookup contentLengthKey =
      optionalBody.map fun body => .ofNumber body.utf16Length := by
  cases optionalBody with
  | none => rfl
  | some body => exact AList.lookup_insert _

def httpRequestUnauthenticatedWithMethod (method location : NSString)
    (optionalBody : Option NSString) : HttpRequest :=
  ⟨method, location, optionalBody, contentHeaders optionalBody, lookup_contentHeaders optionalBody⟩

def authorizationKey : NSString := "Authorization".toList

/-- `httpRequestWithBasicAuthentication…` and `httpRequestWithOtpAuthentication…`, which differ in
the token they compute. -/
def httpRequestWithAuthentication (method location : NSString) (optionalBody : Option NSString)
    (token : NSString) : HttpRequest where
  method := method
  location := location
  optionalBody := optionalBody
  headers := (contentHeaders optionalBody).insert authorizationKey token
  contentLength := by
    rw [AList.lookup_insert_ne (by decide)]
    exact lookup_contentHeaders optionalBody

def toHttp (request : HttpRequest) : NSString :=
  request.method ++ " ".toList ++ request.location ++ " HTTP/1.0\r\n".toList ++
    request.headers.entries.flatMap (fun entry =>
      entry.1 ++ ": ".toList ++ entry.2 ++ "\r\n".toList) ++
    "\r\n".toList ++ request.optionalBody.getD []

def serialize (request : HttpRequest) : NSData := request.toHttp.encodedAsUtf8

end HttpRequest

/-- The body is a text or data, whichever the factory was given. -/
structure HttpResponse where
  statusCode : UInt64
  statusText : NSString
  headers : Headers
  optionalBodyText : Option NSString := none
  optionalBodyData : Option NSData := none

namespace HttpResponse

def httpResponse200OkWithOptionalBody (optionalBody : Option NSString) : HttpResponse where
  statusCode := 200
  statusText := "OK".toList
  headers := ∅
  optionalBodyText := optionalBody

def hasBody (response : HttpResponse) : Bool :=
  response.optionalBodyData.isSome || response.optionalBodyText.isSome

def getOptionalBodyText (response : HttpResponse) : Throws (Option NSString) :=
  match response.optionalBodyText, response.optionalBodyData with
  | some text, _ => return some text
  | none, some data => return some (← data.decodedAsUtf8)
  | none, none => return none

def toHttp (response : HttpResponse) : Throws NSString := do
  let statusLine := "HTTP/1.0 ".toList ++ NSString.ofNumber response.statusCode.toNat ++
    " ".toList ++ response.statusText ++ "\r\n".toList
  match ← response.getOptionalBodyText with
  | some body =>
    -- There is no empty line between this header and the body.
    return statusLine ++ "Content-Length: ".toList ++ NSString.ofNumber body.utf16Length ++
      "\r\n".toList ++ body
  | none => return statusLine ++ "\r\n".toList

def serialize (response : HttpResponse) : Throws NSData := do
  return (← response.toHttp).encodedAsUtf8

end HttpResponse

inductive HttpRequestOrResponse
  | request (request : HttpRequest)
  | response (response : HttpResponse)

end SignalIOS.Http
