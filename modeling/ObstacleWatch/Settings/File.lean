import ObstacleWatch.Files.Tree
import ObstacleWatch.Settings.Document
import ObstacleWatch.Text.Utf8

/-!
# Settings from a file
-/

namespace ObstacleWatch

inductive SettingsFileError where
  | unreadable (error : FileError)
  | unusable (error : SettingsError)

namespace SettingsFileError

/-- The wording of an error for the file of a path. -/
def failure (path : String) : SettingsFileError → Failure
  | unreadable error => (Failure.of error.message).during s!"reading config {path}"
  | unusable error => error.failure.during s!"parsing config {path}"

end SettingsFileError

namespace Settings

/-- The settings in the file that a path leads to. -/
def load (t : FileTree) (path : String) : Except SettingsFileError Settings := do
  let octets ← (t.read path).mapError .unreadable
  match Utf8.decode? octets with
  | some text => (ofChars text).mapError .unusable
  | none => throw (.unreadable .notText)

end Settings

end ObstacleWatch
