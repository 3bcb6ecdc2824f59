import DocSite.Text.Cut

namespace DocSite

inductive PageKind where
  | namespacePage
  | packagePage
  | classPage
  | sourcePage
  deriving DecidableEq, Repr

namespace PageKind

def all : List PageKind := [namespacePage, packagePage, classPage, sourcePage]

def word : PageKind → String
  | namespacePage => "namespace"
  | packagePage => "package"
  | classPage => "class"
  | sourcePage => "source"

end PageKind

def placeholder : List Char := ['%', 's']

structure Filenames where
  forNamespace : Option String
  forPackage : Option String
  forClass : Option String
  forSource : Option String
  deriving DecidableEq, Repr

namespace Filenames

def standard : Filenames :=
  ⟨some "namespace-%s.html", some "package-%s.html", some "class-%s.html", some "source-%s.html"⟩

def get? (f : Filenames) : PageKind → Option String
  | .namespacePage => f.forNamespace
  | .packagePage => f.forPackage
  | .classPage => f.forClass
  | .sourcePage => f.forSource

def patterns (f : Filenames) : List (PageKind × String) :=
  PageKind.all.filterMap fun kind => (f.get? kind).map fun pattern => (kind, pattern)

/-- The file name for a token: it replaces the first placeholder of the pattern. -/
def fill (pattern token : String) : String :=
  match Text.splitAt? placeholder pattern.toList with
  | some (before, after) => String.ofList (before ++ token.toList ++ after)
  | none => pattern

end Filenames
end DocSite
