import NativeTyping.Config.Basic
import NativeTyping.Error
import NativeTyping.Toml.Document
/-!
Reading a configuration from a document. Settings that are not given keep their
defaults, and keys that are no settings are ignored.
-/

namespace NativeTyping

namespace Config

def settings (config : Config) : List (String × Bool) :=
  [("use_annotations", config.useHints), ("infer_return_types", config.inferReturns),
   ("promote_mutated_arrays", config.promoteArrays), ("literal_arrays", config.literalArrays)]

def setNamed? (config : Config) (name : String) (value : Bool) : Option Config :=
  match name with
  | "use_annotations" => some { config with useHints := value }
  | "infer_return_types" => some { config with inferReturns := value }
  | "promote_mutated_arrays" => some { config with promoteArrays := value }
  | "literal_arrays" => some { config with literalArrays := value }
  | _ => none

def isSetting (name : String) : Bool :=
  (setNamed? {} name true).isSome

def applyMember (config : Config) (member : String × Toml.Node) : Except Error Config :=
  match member with
  | (name, .value (.boolean value)) => .ok ((config.setNamed? name value).getD config)
  | (name, _) => if isSetting name then .error .invalidConfig else .ok config

def ofToml (text : String) : Except Error Config :=
  match Toml.Document.ofText? text.toList with
  | some document => document.members.foldlM applyMember {}
  | none => .error .invalidConfig

/-- The configuration that the file at a path gives, where `content` is what was
read from it, if it could be read. -/
def ofFile (path : String) (content : Option String) : Except Error Config :=
  match content with
  | some text => ofToml text
  | none => .error (.unreadableConfig path)

end Config

end NativeTyping
