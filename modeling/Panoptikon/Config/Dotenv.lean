import Panoptikon.Foundation.TextLines

/-!
# Environment files

An editor that changes the assignments of an environment file and leaves its
other lines alone, and the parser that every reader of the file uses. Each
recognizes names, quotes and comments with a scanner of its own. Offsets count
characters.
-/

namespace Panoptikon.Config

open Foundation

def isEnvName : Text → Bool
  | [] => false
  | first :: rest =>
      (first.isAlpha || first == '_') && rest.all fun character => character.isAlphanum || character == '_'

/-- `\u{feff}` -/
def byteOrderMark : Char := Char.ofNat 0xfeff

structure DotenvDocument where
  lines : List Text
  newline : Text
  trailingNewline : Bool

namespace DotenvDocument

def parse (source : Text) : DotenvDocument :=
  let normalized := Text.replace ['\r', '\n'] ['\n'] source
  { lines :=
      if normalized.isEmpty then []
      else ((Text.stripSuffix ['\n'] normalized).getD normalized).splitOn '\n'
    newline := if Text.contains source ['\r', '\n'] then ['\r', '\n'] else ['\n']
    trailingNewline := source.getLast? = some '\n' }

/-- `Display::fmt` -/
def toText (document : DotenvDocument) : Text :=
  List.intercalate document.newline document.lines ++
    if document.trailingNewline && !document.lines.isEmpty then document.newline else []

end DotenvDocument

structure DotenvAssignment where
  key : Text
  equals : Nat
  commentSuffix : Text

/-- The loop of `dotenv_comment_start`; `previous` is the character before the index. -/
def dotenvCommentFrom : Option Char → Bool → Option Char → Nat → Text → Option Nat
  | _, _, _, _, [] => none
  | quote, escaped, previous, index, character :: rest =>
      if escaped then dotenvCommentFrom quote false (some character) (index + 1) rest
      else if character = '\\' ∧ quote = some '"' then
        dotenvCommentFrom quote true (some character) (index + 1) rest
      else if character = '\'' ∨ character = '"' then
        let quote :=
          if quote = some character then none
          else if quote = none then some character
          else quote
        dotenvCommentFrom quote false (some character) (index + 1) rest
      else if character = '#' ∧ quote = none ∧ previous.any Text.isWhitespace then some index
      else dotenvCommentFrom quote false (some character) (index + 1) rest

def dotenvCommentStart (value : Text) : Option Nat := dotenvCommentFrom none false none 0 value

def dotenvAssignment (line : Text) : Option DotenvAssignment := do
  let equals ← line.findIdx? (· = '=')
  let start := Text.trimStart (line.take equals)
  let start := Text.trimStart ((Text.stripPrefix "export ".toList start).getD start)
  let key := Text.trimEnd start
  if !isEnvName key then none
  else
    let value := line.drop (equals + 1)
    let comment := (dotenvCommentStart value).getD value.length
    let whitespace := comment - ((value.take comment).reverse.takeWhile Text.isWhitespace).length
    some { key, equals, commentSuffix := value.drop whitespace }

def encodeDotenvValue (value : Text) : Text :=
  let value := Text.replace ['\\'] ['\\', '\\'] value
  let value := Text.replace ['"'] ['\\', '"'] value
  let value := Text.replace ['\n'] ['\\', 'n'] value
  let value := Text.replace ['\r'] ['\\', 'r'] value
  '"' :: (value ++ ['"'])

/-- The given values, of distinct and valid names. -/
structure EnvValues where
  entries : List (Text × Text)
  distinct : (entries.map Prod.fst).Nodup
  valid : ∀ entry ∈ entries, isEnvName entry.1 = true

def EnvValues.get (values : EnvValues) (key : Text) : Option Text := values.entries.lookup key

namespace DotenvDocument

/-- The line with its value replaced. -/
def rewrite (line : Text) (assignment : DotenvAssignment) (value : Text) : Text :=
  line.take (assignment.equals + 1) ++ encodeDotenvValue value ++ assignment.commentSuffix

/-- The loop of `retain_mut`: the lines that are left and the names written. -/
def retainLines (values : EnvValues) (remove : List Text) : List Text → List Text → List Text × List Text
  | written, [] => ([], written)
  | written, line :: rest =>
      match dotenvAssignment line with
      | none =>
          let (lines, written) := retainLines values remove written rest
          (line :: lines, written)
      | some assignment =>
          if assignment.key ∈ remove then retainLines values remove written rest
          else
            match values.get assignment.key with
            | none =>
                let (lines, written) := retainLines values remove written rest
                (line :: lines, written)
            | some value =>
                if assignment.key ∈ written then retainLines values remove written rest
                else
                  let (lines, written) := retainLines values remove (assignment.key :: written) rest
                  (rewrite line assignment value :: lines, written)

/-- One turn of the loop over the values. -/
def appendMissing (remove : List Text) (state : List Text × List Text) (entry : Text × Text) :
    List Text × List Text :=
  if entry.1 ∉ remove ∧ entry.1 ∉ state.2 then
    (state.1 ++ [entry.1 ++ '=' :: encodeDotenvValue entry.2], entry.1 :: state.2)
  else state

def apply (document : DotenvDocument) (values : EnvValues) (remove : List Text) : DotenvDocument :=
  let retained := retainLines values remove [] document.lines
  let lines := (values.entries.foldl (appendMissing remove) retained).1
  { document with lines, trailingNewline := if lines.isEmpty then document.trailingNewline else true }

end DotenvDocument

structure DotenvParse where
  values : List (Text × Text)
  diagnostics : List String

/-- Up to a comment sign that stands after white space. -/
def unquotedUntil : Bool → Text → Text
  | _, [] => []
  | afterWhitespace, character :: rest =>
      if character = '#' ∧ afterWhitespace then []
      else character :: unquotedUntil (Text.isWhitespace character) rest

/-- What an escape in double quotes stands for. -/
def unescape (character : Char) : Text :=
  if character = '\\' ∨ character = '"' ∨ character = '\'' ∨ character = '$' then [character]
  else if character = 'n' then ['\n']
  else if character = 'r' then ['\r']
  else if character = 't' then ['\t']
  else ['\\', character]

/-- The loop over the characters after the opening quote. -/
def readQuotedValue (quote : Char) : Text → Bool → Text → Except String Text
  | _, _, [] => .error "unterminated quoted value"
  | output, true, character :: rest => readQuotedValue quote (output ++ unescape character) false rest
  | output, false, character :: rest =>
      if quote = '"' ∧ character = '\\' then readQuotedValue quote output true rest
      else if character = quote then
        let tail := Text.trimStart rest
        if tail.isEmpty ∨ tail.head? = some '#' then .ok output
        else .error "unexpected text after the closing quote"
      else readQuotedValue quote (output ++ [character]) false rest

def parseDotenvValue (text : Text) : Except String Text :=
  match text with
  | [] => .ok []
  | quote :: rest =>
      if quote = '\'' ∨ quote = '"' then readQuotedValue quote [] false rest
      else .ok (Text.trimEnd (unquotedUntil false text))

/-- What a line adds to the values or to the diagnostics. -/
inductive LineReading where
  | skipped
  | assigned (key value : Text)
  | faulty (message : String)

/-- The body of the loop of `parse_dotenv`. -/
def readDotenvLine (index : Nat) (line : Text) : LineReading :=
  let line := Text.trim line
  let number := index + 1
  if line.isEmpty ∨ line.head? = some '#' then .skipped
  else
    match line.findIdx? (· = '=') with
    | none => .faulty s!"line {number}: not a KEY=value assignment (line skipped)"
    | some equals =>
        let key := Text.trimEnd (line.take equals)
        let key := ((Text.stripPrefix "export ".toList key).map Text.trimStart).getD key
        if !isEnvName key then .faulty s!"line {number}: invalid variable name before '=' (line skipped)"
        else
          match parseDotenvValue (Text.trimStart (line.drop (equals + 1))) with
          | .ok value => .assigned key value
          | .error reason =>
              let name := String.ofList key
              .faulty s!"line {number} ({name}): {reason} (line skipped)"

/-- What one line leaves of the values and the diagnostics. -/
def DotenvParse.add (parsed : DotenvParse) : LineReading → DotenvParse
  | .skipped => parsed
  | .assigned key value => { parsed with values := parsed.values ++ [(key, value)] }
  | .faulty message => { parsed with diagnostics := parsed.diagnostics ++ [message] }

def parseDotenv (source : Text) : DotenvParse :=
  let source := (Text.stripPrefix [byteOrderMark] source).getD source
  (Text.lines source).zipIdx.foldl (fun parsed line => parsed.add (readDotenvLine line.2 line.1)) ⟨[], []⟩

/-- The values as a map, where the last of a name wins. -/
def lastWins (values : List (Text × Text)) (key : Text) : Option Text := values.reverse.lookup key

end Panoptikon.Config
