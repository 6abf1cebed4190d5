import Highlight.Contributor.Brackets
import Highlight.Contributor.Occurrences
import Highlight.Language.Rules

/-!
# The languages known by themselves

Rules for Java, CSS, JSON and INI files, and how a file's name selects one of them.
-/

namespace Highlight.Builtin

/-- A string between quotation marks, where a backslash protects the next character. -/
def stringPattern : String := "\"(?:\\\\.|[^\"\\\\])*\""

/-- The reserved words of Java. -/
def javaKeywords : List String := [
  "abstract", "assert", "boolean", "break", "byte", "case", "catch", "char", "class", "const",
  "continue", "default", "do", "double", "else", "enum", "extends", "final", "finally", "float",
  "for", "goto", "if", "implements", "import", "instanceof", "int", "interface", "long", "native",
  "new", "package", "private", "protected", "public", "return", "short", "static", "strictfp",
  "super", "switch", "synchronized", "this", "throw", "throws", "transient", "try", "void",
  "volatile", "while"]

/-- Java, with the word at the caret and matching brackets. -/
def java : RuleSet where
  name := "Java"
  rules := [
    ⟨"comment", "//[^\\n]*|/\\*(?s:.*?)\\*/"⟩,
    ⟨"string", stringPattern⟩,
    ⟨"char", "'(?:\\\\.|[^'\\\\])'"⟩,
    ⟨"keyword", "\\b(?:" ++ "|".intercalate javaKeywords ++ ")\\b"⟩,
    ⟨"annotation", "@[A-Za-z_][A-Za-z0-9_]*"⟩,
    ⟨"number", "\\b[0-9]+(?:\\.[0-9]+)?[fFdDlL]?\\b"⟩,
    ⟨"paren", "[()]"⟩,
    ⟨"brace", "[\x7B\x7D]"⟩,
    ⟨"bracket", "[\\[\\]]"⟩,
    ⟨"semicolon", ";"⟩]
  contributors := [
    .caretOccurrences Contributor.caretWordLabel,
    .bracketMatch Contributor.bracketLabel]
  styleSheet := "styles/java.css"

/-- CSS style sheets, with matching brackets. -/
def css : RuleSet where
  name := "CSS"
  rules := [
    ⟨"comment", "/\\*(?s:.*?)\\*/"⟩,
    ⟨"string", stringPattern ++ "|'(?:\\\\.|[^'\\\\])*'"⟩,
    ⟨"at-rule", "@[A-Za-z-]+"⟩,
    ⟨"color", "#[0-9a-fA-F]\x7B3,8\x7D\\b"⟩,
    ⟨"selector", "[.#][A-Za-z_-][A-Za-z0-9_-]*"⟩,
    ⟨"number", "-?[0-9]+(?:\\.[0-9]+)?(?:px|em|rem|vh|vw|ms|s|%)?"⟩,
    ⟨"brace", "[\x7B\x7D]"⟩]
  contributors := [.bracketMatch Contributor.bracketLabel]
  styleSheet := "styles/css.css"

/-- JSON documents, with matching brackets. -/
def json : RuleSet where
  name := "JSON"
  rules := [
    ⟨"string", stringPattern⟩,
    ⟨"number", "-?(?:0|[1-9]\\d*)(?:\\.\\d+)?(?:[eE][+-]?\\d+)?"⟩,
    ⟨"boolean", "\\b(?:true|false)\\b"⟩,
    ⟨"null", "\\bnull\\b"⟩]
  contributors := [.bracketMatch Contributor.bracketLabel]
  styleSheet := "styles/json.css"

/-- INI files; the equals sign belongs to the key. -/
def ini : RuleSet where
  name := "INI"
  rules := [
    ⟨"section", "^[ \\t]*\\[[^\\]\\n]+\\]"⟩,
    ⟨"comment", "^[ \\t]*[;#][^\\n]*"⟩,
    ⟨"key", "^[ \\t]*[^=\\s;#\\[][^=\\n]*="⟩]
  styleSheet := "styles/ini.css"

/-! ## Selection by file name -/

/-- The rules for a file extension, given in small letters. -/
def rulesFor? : String → Option RuleSet
  | "java" => some java
  | "css" => some css
  | "json" => some json
  | "ini" | "cfg" | "conf" => some ini
  | _ => none

/-- The language for a file extension without its dot, in letters of either case; plain text if no
other is known. -/
def ofExtension (properties : Pattern.Properties) (extension : String) : Except RuleError Language :=
  match rulesFor? (extension.map Char.toLower) with
  | some rules => rules.build properties
  | none => .ok .plainText

/-- The last part of a path that names a file: slashes at the end and parts that are a single dot
do not count, and neither does a path that ends in two dots. -/
def fileName? (path : String) : Option String :=
  match ((path.splitOn "/").filter fun part => part != "" && part != ".").getLast? with
  | some ".." => none
  | last => last

/-- The part of a file name after its last dot, unless that dot comes first. -/
def extension? (name : String) : Option String :=
  let reversed := name.toList.reverse
  match reversed.dropWhile (· != '.') with
  | _ :: _ :: _ => some (.ofList (reversed.takeWhile (· != '.')).reverse)
  | _ => none

/-- The language for a path, selected by the extension of the file's name. -/
def ofPath (properties : Pattern.Properties) (path : String) : Except RuleError Language :=
  ofExtension properties (((fileName? path).bind extension?).getD "")

end Highlight.Builtin
