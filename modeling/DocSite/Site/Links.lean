import DocSite.Config.Basic
import DocSite.Decl
import DocSite.Text.Case

namespace DocSite

structure MissingFilename where
  kind : PageKind
  deriving DecidableEq, Repr

def MissingFilename.message (e : MissingFilename) : String :=
  s!"{e.kind.word} output filename not defined"

def isWordChar (c : Char) : Bool := c.isAlphanum || c == '_'

/-- The token of a name: a point stands for each byte of a character that is no word character. -/
def tokenOf (name : String) : String :=
  String.ofList <| name.toList.flatMap fun c =>
    if isWordChar c then [c] else List.replicate c.utf8Size '.'

def noNameToken : String := "None"

def groupToken (name : String) : String := if name = "" then noNameToken else tokenOf name

structure Links where
  filenames : Filenames
  /-- The directory that declaring files are made relative to. -/
  sourceRoot : Path
  docsUrl : String
  deriving DecidableEq, Repr

namespace Links

def ofConfig (c : Config) (sourceRoot : Path) : Links := ⟨c.filenames, sourceRoot, c.docsUrl⟩

def page (l : Links) (kind : PageKind) (token : String) : Except MissingFilename String :=
  match l.filenames.get? kind with
  | some pattern => .ok (Filenames.fill pattern token)
  | none => .error ⟨kind⟩

def namespacePage (l : Links) (ns : String) : Except MissingFilename String :=
  l.page .namespacePage (groupToken ns)

def packagePage (l : Links) (package : String) : Except MissingFilename String :=
  l.page .packagePage (groupToken package)

def classPage (l : Links) (name : String) : Except MissingFilename String :=
  l.page .classPage (tokenOf name)

def typePage (l : Links) (d : Decl) : Except MissingFilename String := l.classPage d.name

def anchorMark : MemberKind → String
  | .property => "$"
  | .method => "_"
  | .constant => ""

def memberLink (l : Links) (d : Decl) (m : Member) : Except MissingFilename String := do
  .ok ((← l.typePage d) ++ "#" ++ anchorMark m.kind ++ m.name)

def mirrorPage (l : Links) (relative : String) : Except MissingFilename String :=
  l.page .sourcePage (tokenOf relative)

def sourcePage (l : Links) (file : Path) : Except MissingFilename String :=
  l.mirrorPage (l.sourceRoot.relativeTo file)

def sourceLine (l : Links) (file : Path) (line : Option Nat) : Except MissingFilename String := do
  let page ← l.sourcePage file
  match line with
  | some n => .ok s!"{page}#{n}"
  | none => .ok page

/-- An address outside the site. It is refused as a source link would be if the pattern for source
pages is missing. -/
def external (l : Links) (page : String) : Except MissingFilename String :=
  match l.filenames.get? .sourcePage with
  | some _ => .ok (Text.toLower (l.docsUrl ++ page ++ ".php"))
  | none => .error ⟨.sourcePage⟩

/-- The source of a type: a user-defined type has a source page, any other is documented
elsewhere. -/
def sourceLink (l : Links) (d : Decl) (withLine : Bool) : Except MissingFilename String :=
  match d.sourceFile? with
  | some file => l.sourceLine file (if withLine then d.line else none)
  | none => l.external ("class." ++ d.name)

/-- The name of a member in the address of its documentation: without leading underscores, and
with hyphens for the others. -/
def memberAddress (name : String) : String :=
  String.ofList <| (Text.dropLeading '_' name).toList.map fun c => if c = '_' then '-' else c

def memberSourceLink (l : Links) (d : Decl) (m : Member) : Except MissingFilename String :=
  match d.sourceFile? with
  | some file => l.sourceLine file m.line
  | none => l.external (d.name ++ "." ++ memberAddress m.name)

end Links
end DocSite
