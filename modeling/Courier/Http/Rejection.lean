import Courier.Json.Codec

/-!
# Rejections

Why a record, a request or an exchange is refused. A rejected record causes no call.
-/

namespace Courier

inductive Rejection where
  | missing (field : String)
  | invalid (reason : String)
  | ambiguousBody
  | unsupportedMethod (text : String)
  | invalidPattern (pattern reason : String)
  | undecodable (cause : Json.DecodeError)

def Rejection.message : Rejection → String
  | .missing field => "'" ++ field ++ "' is required but missing"
  | .invalid reason => "Invalid request: " ++ reason
  | .ambiguousBody => "More than one body representation supplied"
  | .unsupportedMethod text => "Unsupported HTTP method: " ++ text
  | .invalidPattern pattern reason => "Invalid success pattern '" ++ pattern ++ "': " ++ reason
  | .undecodable cause => "Serialization error: " ++ cause.message

end Courier
