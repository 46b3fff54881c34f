/-!
# Case of letters

Names and words are compared without regard to the case of ASCII letters; other letters stay apart.
-/

namespace ObstacleWatch

/-- The text with its ASCII letters in lower case. -/
def foldCase (s : String) : String :=
  String.ofList (s.toList.map Char.toLower)

end ObstacleWatch
