import Cox.Http.Request

/-!
# Responses

`HttpResponse` of http/http_response.h: header names are case-sensitive, and the
length and connection headers are written by `appendTo` itself.
-/
namespace Cox.Http

open Cox.Lib

def intNumeral (n : Int) : Bytes :=
  (if n < 0 then text "-" else []) ++ numeral 10 n.natAbs

structure HttpResponse where
  statusCode : Int := 200
  statusReason : Bytes := text "OK"
  headers : HeaderMap := .empty
  body : Bytes := []
  keepAlive : Bool := true
  deriving DecidableEq

namespace HttpResponse

def defaultReason (code : Int) : Bytes :=
  if code = 200 then text "OK"
  else if code = 201 then text "Created"
  else if code = 204 then text "No Content"
  else if code = 301 then text "Moved Permanently"
  else if code = 302 then text "Found"
  else if code = 304 then text "Not Modified"
  else if code = 400 then text "Bad Request"
  else if code = 401 then text "Unauthorized"
  else if code = 403 then text "Forbidden"
  else if code = 404 then text "Not Found"
  else if code = 405 then text "Method Not Allowed"
  else if code = 408 then text "Request Timeout"
  else if code = 413 then text "Payload Too Large"
  else if code = 429 then text "Too Many Requests"
  else if code = 500 then text "Internal Server Error"
  else if code = 501 then text "Not Implemented"
  else if code = 503 then text "Service Unavailable"
  else text "OK"

def setStatus (r : HttpResponse) (code : Int) (reason : Bytes) : HttpResponse :=
  { r with
    statusCode := code
    statusReason := if reason.isEmpty then defaultReason code else reason }

def addHeader (r : HttpResponse) (key value : Bytes) : HttpResponse :=
  { r with headers := r.headers.insert key value }

def setContentType (r : HttpResponse) (type : Bytes) : HttpResponse :=
  r.addHeader (text "Content-Type") type

def header (r : HttpResponse) (key : Bytes) : Bytes := (r.headers.find? key).getD []

def setBody (r : HttpResponse) (body : Bytes) : HttpResponse := { r with body }

def setKeepAlive (r : HttpResponse) (on : Bool) : HttpResponse := { r with keepAlive := on }

/-- Serialise the response: status line, headers and body. -/
def appendTo (r : HttpResponse) : Bytes :=
  text "HTTP/1.1 " ++ intNumeral r.statusCode ++ text " " ++ r.statusReason ++ crlf ++
    text "Content-Length: " ++ numeral 10 r.body.length ++ crlf ++
    text "Connection: " ++ (if r.keepAlive then text "keep-alive" else text "close") ++ crlf ++
    HttpRequest.headerLines (fun key => key == text "Content-Length" || key == text "Connection")
      r.headers.entries ++
    crlf ++ r.body

end HttpResponse

end Cox.Http
