import DocSite.Site.Links

namespace DocSite

inductive TemplateFault where
  /-- The text is no template. -/
  | malformed
  /-- A string literal holds an escape that denotes no character. -/
  | badEscape
  /-- A value that is not defined was used where one is needed. -/
  | undefinedValue
  /-- There is no template of this name. -/
  | templateMissing
  /-- The file of a template cannot be read as text. -/
  | templateUnreadable (path : Path)
  /-- A link was asked for whose file name pattern is missing. -/
  | noPattern (cause : MissingFilename)
  /-- The link of a value was asked for that has none. -/
  | noLink
  /-- An operation is not defined for these values. -/
  | invalidOperation
  | unknownFilter
  | unknownTest
  | unknownFunction
  | unknownMethod
  | unknownBlock
  /-- An included template failed. -/
  | badInclude
  /-- The block that another one extends failed. -/
  | badParentBlock
  | missingArgument
  | tooManyArguments
  /-- A sequence has more or fewer items than the names it is assigned to. -/
  | cannotUnpack
  /-- A value cannot be a key. -/
  | notKey
  /-- A value cannot be written in the notation of the page. -/
  | notWritable
  deriving DecidableEq, Repr

def TemplateFault.message : TemplateFault → String
  | malformed => "the template is malformed"
  | badEscape => "a string holds an unknown escape"
  | undefinedValue => "a value is undefined"
  | templateMissing => "there is no such template"
  | templateUnreadable path => s!"failed to read template {path.text}"
  | noPattern cause => cause.message
  | noLink => "class_link expects a name or a value with a link"
  | invalidOperation => "the operation is not defined for these values"
  | unknownFilter => "there is no such filter"
  | unknownTest => "there is no such test"
  | unknownFunction => "there is no such function"
  | unknownMethod => "there is no such method"
  | unknownBlock => "there is no such block"
  | badInclude => "an included template failed"
  | badParentBlock => "an extended block failed"
  | missingArgument => "an argument is missing"
  | tooManyArguments => "there are too many arguments"
  | cannotUnpack => "the items do not match the names"
  | notKey => "the value cannot be a key"
  | notWritable => "the value cannot be written"

end DocSite
