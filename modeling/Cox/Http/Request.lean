import Cox.Lib.Bytes
import Cox.Lib.SortedMap

/-!
# Requests

`HttpRequest` of http/http_request.h and the line scanner that both parsers share.
Header names are stored in lower case, in an ordered map. The cache of parsed query
parameters is left out: nothing here reads it.
-/
namespace Cox.Http

open Cox.Lib

def cr : UInt8 := 13
def lf : UInt8 := 10
def sp : UInt8 := 32
def colonByte : UInt8 := 58
def questionMark : UInt8 := 63

def crlf : Bytes := [cr, lf]

/-- Find CRLF; the result is the distance of the `\r` from the beginning. -/
def findCrlf : Bytes → Option Nat
  | a :: b :: rest =>
    if a = cr ∧ b = lf then some 0 else (findCrlf (b :: rest)).map (· + 1)
  | _ => none

theorem findCrlf_cons (a : UInt8) (s : Bytes) (i : Nat) (found : findCrlf (a :: s) = some i) :
    (i = 0 ∧ ∃ rest, s = lf :: rest ∧ a = cr) ∨
      ∃ j b rest, i = j + 1 ∧ s = b :: rest ∧ ¬(a = cr ∧ b = lf) ∧ findCrlf s = some j := by
  cases s with
  | nil => cases found
  | cons b rest =>
    rw [findCrlf] at found
    split at found
    next hit =>
      cases found
      exact .inl ⟨rfl, rest, by rw [hit.2], hit.1⟩
    next miss =>
      obtain ⟨j, later, rfl⟩ := Option.map_eq_some_iff.mp found
      exact .inr ⟨j, b, rest, rfl, rfl, miss, later⟩

theorem findCrlf_bound (s : Bytes) (i : Nat) (found : findCrlf s = some i) :
    i + 2 ≤ s.length := by
  induction s generalizing i with
  | nil => cases found
  | cons a s ih =>
    rcases findCrlf_cons a s i found with ⟨rfl, rest, rfl, _⟩ | ⟨j, b, rest, rfl, _, _, later⟩
    · simp
    · have bound := ih j later
      rw [List.length_cons]
      omega

theorem findCrlf_append (s t : Bytes) (i : Nat) (found : findCrlf s = some i) :
    findCrlf (s ++ t) = some i := by
  induction s generalizing i with
  | nil => cases found
  | cons a s ih =>
    rcases findCrlf_cons a s i found with
      ⟨rfl, rest, rfl, rfl⟩ | ⟨j, b, rest, rfl, rfl, miss, later⟩
    · simp [findCrlf]
    · have longer := ih j later
      simp only [List.cons_append] at longer ⊢
      simp [findCrlf, miss, longer]

inductive Method where
  | invalid
  | get
  | post
  | put
  | delete
  | head
  | options
  | patch
  deriving DecidableEq, Repr

def methodToString : Method → Bytes
  | .get => text "GET"
  | .post => text "POST"
  | .put => text "PUT"
  | .delete => text "DELETE"
  | .head => text "HEAD"
  | .options => text "OPTIONS"
  | .patch => text "PATCH"
  | .invalid => text "INVALID"

def methodFromString (s : Bytes) : Method :=
  if s = text "GET" then .get
  else if s = text "POST" then .post
  else if s = text "PUT" then .put
  else if s = text "DELETE" then .delete
  else if s = text "HEAD" then .head
  else if s = text "OPTIONS" then .options
  else if s = text "PATCH" then .patch
  else .invalid

abbrev HeaderMap := SortedMap Bytes Bytes

structure HttpRequest where
  method : Method := .invalid
  path : Bytes := []
  query : Bytes := []
  version : Bytes := text "HTTP/1.1"
  headers : HeaderMap := .empty
  body : Bytes := []
  deriving DecidableEq

namespace HttpRequest

def addHeader (r : HttpRequest) (key value : Bytes) : HttpRequest :=
  { r with headers := r.headers.insert (toLower key) value }

def header (r : HttpRequest) (key : Bytes) : Bytes := (r.headers.find? (toLower key)).getD []

def appendBody (r : HttpRequest) (data : Bytes) : HttpRequest := { r with body := r.body ++ data }

def keepAlive (r : HttpRequest) : Bool :=
  let conn := toLower (r.header (text "connection"))
  if r.version = text "HTTP/1.1" then conn != text "close"
  else conn == text "keep-alive"

def headerLines (skip : Bytes → Bool) (entries : List (Bytes × Bytes)) : Bytes :=
  (entries.filter fun e => !skip e.1).flatMap fun e => e.1 ++ text ": " ++ e.2 ++ crlf

/-- Serialise the request; `host` gives the Host header unless the request has one. -/
def appendTo (r : HttpRequest) (host : Bytes) : Bytes :=
  methodToString r.method ++ text " " ++ (if r.path.isEmpty then text "/" else r.path) ++
    (if r.query.isEmpty then [] else text "?" ++ r.query) ++ text " HTTP/1.1" ++ crlf ++
    (if host.isEmpty || (r.headers.find? (text "host")).isSome then []
      else text "Host: " ++ host ++ crlf) ++
    headerLines (· == text "content-length") r.headers.entries ++
    text "Content-Length: " ++ numeral 10 r.body.length ++ crlf ++ crlf ++ r.body

end HttpRequest

end Cox.Http
