import DesignLint.Json.Printer
import DesignLint.Service.Address
import DesignLint.Service.Body
import DesignLint.Syntax.Basic

/-!
# Requests and responses

A request has a method, an address and perhaps a document. The document is sent as a
text in UTF-8, so it must have one. A response has a status and a document, or a text
when the service itself has failed.
-/

namespace DesignLint.Service

/-! ## Requests -/

/-- A request. The parser's answer belongs to the source text in the document. -/
structure Request where
  method : String
  address : Address
  body : Option Json
  parsed : Syntax.ParseResult

/-- Why a request cannot be sent. -/
inductive RequestError where
  | address (error : AddressError)
  | notFinite
  | unencodable (error : EncodingError)
deriving DecidableEq, Repr

/-- The message of an error. -/
def RequestError.message : RequestError → String
  | address error => error.message
  | notFinite => "Out of range float values are not JSON compliant"
  | unencodable error => error.message

/-- Why a document cannot be sent, if it cannot: one of its numbers has no form, or one of
its texts has lone surrogates. -/
def documentError? (document : Json) : Option RequestError :=
  match document.tight? with
  | none => some .notFinite
  | some text => (Utf8.encodingError? text).map .unencodable

/-- The request with a method, however that is written, to an address. Which schemes are
known only matters when the document can be sent. -/
def Request.prepare (method address : String) (body : Option Json)
    (parsed : Syntax.ParseResult) : Except RequestError Request :=
  match Address.ofText address, body.bind documentError? with
  | .ok address, none => .ok ⟨method.toUpper, address, body, parsed⟩
  | .ok _, some error => .error error
  | .error (.unknownScheme _), some error => .error error
  | .error error, _ => .error (.address error)

/-! ## Responses -/

/-- A response. -/
structure Response where
  status : Nat
  body : Json

namespace Response

/-- A response with what was asked for. -/
def ok (body : Json) : Response := ⟨200, body⟩

/-- A response that tells why there is none. -/
def refused (status : Nat) (detail : String) : Response :=
  ⟨status, .object [("detail", .string detail)]⟩

/-- The response to an unknown path. -/
def notFound : Response := refused 404 "Not Found"

/-- The response to a method that a path does not have. -/
def notAllowed : Response := refused 405 "Method Not Allowed"

/-- The response to a document that does not fit. -/
def misfit (errors : List BodyError) : Response :=
  ⟨422, .object [("detail", .array (errors.map BodyError.toJson))]⟩

/-- The response when the service has failed. -/
def failed : Response := ⟨500, .string "Internal Server Error"⟩

end Response

end DesignLint.Service
