/-!
What can go wrong at the edges of the library, and the text that reports it.

Analysis itself does not fail: what it cannot determine is `unknown`.
-/

namespace NativeTyping

inductive Error where
  | unparsable (reason : String)
  | functionNotFound (name : String)
  | invalidConfig
  | unreadableConfig (path : String)
  deriving DecidableEq, Repr

def Error.message : Error → String
  | .unparsable reason => "Python parse error: " ++ reason
  | .functionNotFound name =>
      "function `" ++ name ++ "` is not defined in this compilation unit"
  | .invalidConfig => "invalid inference configuration"
  | .unreadableConfig path => "failed to read " ++ path

end NativeTyping
