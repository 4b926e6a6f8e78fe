import Courier.Settings.Environment
import Courier.Settings.Validation
import Courier.Toml.Document

/-!
# Loading settings

Settings come from a file in TOML, are changed by the environment and then checked.
-/

namespace Courier

inductive SettingsFile where
  | unasked
  /-- There is no such file, or its bytes are not text. -/
  | unreadable
  | text (content : String)

def SettingsFile.ofBytes (bytes : ByteArray) : SettingsFile :=
  match String.fromUTF8? bytes with
  | some content => .text content
  | none => .unreadable

namespace Settings

def ofToml (content : String) : Except SettingsError Settings :=
  match (Toml.read? content).map form.decode with
  | some (.ok s) => .ok s
  | _ => .error .malformed

def ofFile : SettingsFile → Except SettingsError Settings
  | .unasked => .ok {}
  | .unreadable => .error .unreadable
  | .text content => ofToml content

def load [Pattern.Room] (file : SettingsFile) (env : Environment) :
    Except SettingsError Settings := do
  match (← ofFile file).override env with
  | (_, some e) => .error e
  | (s, none) =>
    s.validate
    return s

end Settings

end Courier
