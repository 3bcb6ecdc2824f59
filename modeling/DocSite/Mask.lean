import DocSite.Filenames
import DocSite.Glob

namespace DocSite

structure Mask where
  tokens : List Glob.Token
  onPath : Bool
  deriving DecidableEq, Repr

namespace Mask

def ofPattern? (pattern : String) : Option Mask := do
  let (before, after) ← Text.splitAt? placeholder pattern.toList
  let glob := Glob.escape before ++ '*' :: Glob.escape after
  some ⟨← Glob.parse? true glob, glob.contains '/'⟩

def accepts (m : Mask) (s : List Char) : Bool := Glob.accepts m.tokens s

/-- Whether a mask accepts a file with the given names below the target. A mask about paths looks
at all names, any other only at the last one. -/
def acceptsFile (m : Mask) (names : List String) : Bool :=
  if m.onPath then m.accepts (Text.joinWith ['/'] (names.map String.toList))
  else m.accepts (names.getLast?.getD "").toList

end Mask
end DocSite
