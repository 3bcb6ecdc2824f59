import DocSite.Path

namespace DocSite

/-- A set of files without repeats. Files are compared by the components of their paths, and each is
held in the spelling in which it was added first. -/
structure FileSet where
  files : List Path := []

namespace FileSet

def contains (s : FileSet) (file : Path) : Bool := s.files.any fun f => f.SamePlace file

/-- Adds a file. The answer tells whether it is new. -/
def insert (s : FileSet) (file : Path) : FileSet × Bool :=
  if s.contains file then (s, false) else (⟨s.files ++ [file]⟩, true)

def size (s : FileSet) : Nat := s.files.length

def isEmpty (s : FileSet) : Bool := s.files.isEmpty

end FileSet
end DocSite
