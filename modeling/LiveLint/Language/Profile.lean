import LiveLint.Language.Comment
import LiveLint.Language.Completion
import LiveLint.Language.Highlight
import LiveLint.SourceKind

/-!
# Language profiles

What an editor is told about a kind of source when it is attached: the rules of its tokens, its
comment tokens and its candidates for completion. None of it takes part in checking.

A rule of a profile is given twice, as a pattern and in its written form, and `ofText_source` says
that the second reads as the first.
-/

namespace LiveLint.Language

/-- Everything an editor is told about a kind of source. -/
structure Profile where
  kind : SourceKind
  comments : CommentTokens
  highlighter : Highlighter
  vocabulary : Vocabulary
deriving DecidableEq, Repr

/-! ## Parts of patterns -/

/-- The patterns of the characters of a text. -/
def chars (s : String) : List Pattern :=
  s.toList.map fun c => .one (Pattern.charClass c)

/-- Any of several texts, the first that matches. -/
def anyText (texts : List String) : Pattern :=
  Pattern.altOf (texts.map fun s => Pattern.seqOf (chars s))

/-- A class that holds the given parts. -/
def oneOf (items : List ClassItem) : Pattern := .one ⟨false, items⟩

/-- A class that holds all but the given characters. -/
def oneBut (cs : List Char) : Pattern := .one ⟨true, cs.map .single⟩

/-- Any blanks. -/
def blanks : Pattern := .star true (oneOf [.blank])

/-- The rest of the line. -/
def restOfLine : Pattern := .star true (oneBut ['\n'])

/-- The digits of a number. -/
def digits : Pattern := .plus true (oneOf [.digit])

/-- A backslash and the character after it. -/
def escaped : Pattern := .seq (.one (Pattern.charClass '\\')) (oneBut ['\n'])

/-! ## C sources -/

/-- A directive of the preprocessor. -/
def cDirective : HighlightRule :=
  { source := "^\\s*#\\s*\\w+.*$"
    pattern := Pattern.seqOf
      ([.start, blanks] ++ chars "#" ++ [blanks, .plus true (oneOf [.word]), restOfLine, .stop])
    kind := .preprocessor
    group := none }

/-- A comment up to the end of the line. -/
def cComment : HighlightRule :=
  { source := "//.*$"
    pattern := Pattern.seqOf (chars "//" ++ [restOfLine, .stop])
    kind := .comment
    group := none }

/-- A string literal. -/
def cString : HighlightRule :=
  { source := "\"(?:\\\\.|[^\"\\\\])*\""
    pattern := Pattern.seqOf
      (chars "\"" ++ [.star true (.alt escaped (oneBut ['"', '\\']))] ++ chars "\"")
    kind := .string
    group := none }

/-- A character literal. -/
def cCharacter : HighlightRule :=
  { source := "'(?:\\\\.|[^'\\\\])'"
    pattern := Pattern.seqOf
      (chars "'" ++ [.alt escaped (oneBut ['\'', '\\'])] ++ chars "'")
    kind := .string
    group := none }

/-- The words that are coloured as keywords. -/
def cKeywords : List String :=
  ["int", "void", "char", "float", "double", "long", "short", "unsigned", "signed", "const",
   "static", "struct", "typedef", "if", "else", "for", "while", "do", "switch", "case", "break",
   "continue", "goto", "return", "sizeof"]

/-- A keyword. -/
def cKeyword : HighlightRule :=
  { source := "\\b(?:" ++ String.intercalate "|" cKeywords ++ ")\\b"
    pattern := Pattern.seqOf [.boundary, anyText cKeywords, .boundary]
    kind := .keyword
    group := none }

/-- A number, perhaps with a fraction. -/
def cNumber : HighlightRule :=
  { source := "\\b\\d+(?:\\.\\d+)?\\b"
    pattern := Pattern.seqOf
      [.boundary, digits, .opt true (Pattern.seqOf (chars "." ++ [digits])), .boundary]
    kind := .number
    group := none }

/-- Candidates in C sources. -/
def cLabels : List String :=
  ["#include <stdio.h>", "#include <stdlib.h>", "#include <string.h>", "#include <stdbool.h>",
   "#include <stdint.h>", "int main(void) \x7b", "printf(\"Hello\\n\");", "puts(\"Hello\");",
   "return 0;", "int", "void", "char", "float", "double", "long", "short", "unsigned", "signed",
   "size_t", "bool", "true", "false", "struct", "typedef", "if", "else", "for", "while",
   "switch", "case", "break", "continue", "do", "goto", "return", "malloc", "free", "strlen",
   "strcpy", "memcpy", "memcmp", "strncpy", "snprintf", "fgets", "scanf", "fopen", "fclose",
   "fread", "fwrite", "FILE", "stdout", "stderr"]

/-- The profile of C sources. -/
def Profile.c : Profile :=
  { kind := .c
    comments := .ofLineAndBlock "//" "/*" "*/"
    highlighter := ⟨[cDirective, cComment, cString, cCharacter, cKeyword, cNumber]⟩
    vocabulary := .ofLabels cLabels }

/-! ## Build configurations -/

/-- The mark of a header. -/
def headerMark : HighlightRule :=
  { source := "^\\s*(!muf)\\b"
    pattern := Pattern.seqOf
      [.start, blanks, .group 1 (Pattern.seqOf (chars "!muf")), .boundary]
    kind := .keyword
    group := some 1 }

/-- The tag of an opener, with its brackets. -/
def blockTag : HighlightRule :=
  { source := "^\\s*(\\[[^\\]]+\\])"
    pattern := Pattern.seqOf
      [.start, blanks,
       .group 1 (Pattern.seqOf (chars "[" ++ [.plus true (oneBut [']'])] ++ chars "]"))]
    kind := .tag
    group := some 1 }

/-- A comment line. -/
def commentLine : HighlightRule :=
  { source := "^\\s*;;.*$"
    pattern := Pattern.seqOf ([.start, blanks] ++ chars ";;" ++ [restOfLine, .stop])
    kind := .comment
    group := none }

/-- A quoted text. -/
def quotedText : HighlightRule :=
  { source := "\"[^\"]*\""
    pattern := Pattern.seqOf (chars "\"" ++ [.star true (oneBut ['"'])] ++ chars "\"")
    kind := .string
    group := none }

/-- A closer that is alone on its line. -/
def blockCloser : HighlightRule :=
  { source := "^\\s*(\\.\\.)\\s*$"
    pattern := Pattern.seqOf
      [.start, blanks, .group 1 (Pattern.seqOf (chars "..")), blanks, .stop]
    kind := .delimiter
    group := some 1 }

/-- The name of a directive, with its point. -/
def directiveName : HighlightRule :=
  { source := "\\.[a-z_]+"
    pattern := Pattern.seqOf (chars "." ++ [.plus true (oneOf [.range 'a' 'z', .single '_'])])
    kind := .keyword
    group := none }

/-- A whole number. -/
def wholeNumber : HighlightRule :=
  { source := "\\b\\d+\\b"
    pattern := Pattern.seqOf [.boundary, digits, .boundary]
    kind := .number
    group := none }

/-- Candidates in build configurations. -/
def buildconfLabels : List String :=
  ["[workspace]", "[profile debug]", "[tool cc]", "[bake build]", "[run cc]", "[export]",
   ".set", ".exec", ".make", ".needs", ".output", ".takes", ".emits", ".ref", "bake", "profile",
   "tool", "set", "run", "export", "make", "takes", "emits", "output", "cglob", "glob", "file",
   "list", "as", "@args", "mode", "name", "root", "target_dir"]

/-- The profile of build configurations. -/
def Profile.buildconf : Profile :=
  { kind := .buildconf
    comments := .ofLine ";;"
    highlighter :=
      ⟨[headerMark, blockTag, commentLine, quotedText, blockCloser, directiveName, wholeNumber]⟩
    vocabulary := .ofLabels buildconfLabels }

/-! ## All profiles -/

namespace Profile

/-- The profile of a kind of source. -/
def ofKind : SourceKind → Profile
  | .c => c
  | .buildconf => buildconf

/-- The id under which an editor knows the language. -/
def id (p : Profile) : String := p.kind.name

@[simp] theorem kind_ofKind (kind : SourceKind) : (ofKind kind).kind = kind := by
  cases kind <;> rfl

/-- The written form of every rule reads as its pattern. -/
theorem ofText_source (kind : SourceKind) :
    ∀ rule ∈ (ofKind kind).highlighter.rules,
      (Pattern.ofText rule.source.toList).toOption = some rule.pattern := by
  cases kind <;> decide +kernel

end Profile

end LiveLint.Language
