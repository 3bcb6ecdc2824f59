import DocSite.PathPart
import DocSite.Text.Lossy

namespace DocSite

def bytesOf (s : String) : List UInt8 := s.toUTF8.data.toList

/-- A path as the file system has it. Its names are bytes, which need not be a text. -/
structure RawPath where
  bytes : List UInt8
  deriving DecidableEq, Repr

namespace RawPath

def alphabet : PathAlphabet UInt8 := ⟨0x2f, 0x2e, by decide⟩

def ofText (s : String) : RawPath := ⟨bytesOf s⟩

def components (p : RawPath) : List (PathPart UInt8) := alphabet.parts p.bytes

def SamePlace (p q : RawPath) : Prop := p.components = q.components

instance (p q : RawPath) : Decidable (p.SamePlace q) :=
  inferInstanceAs (Decidable (p.components = q.components))

def join (p q : RawPath) : RawPath := ⟨alphabet.join p.bytes q.bytes⟩

/-- The text that a part is shown as. Bytes that are no UTF-8 are lost: a replacement character
stands for them. -/
def shown (c : PathPart UInt8) : String := Text.ofBytes (alphabet.text c).toByteArray

/-- The path of `file` relative to `root`, as a text. A file outside `root` keeps all its
components. -/
def relativeTo (root file : RawPath) : String :=
  String.ofList (Text.joinWith ['/']
    ((alphabet.below root.bytes file.bytes).map fun c => (shown c).toList))

end RawPath
end DocSite
