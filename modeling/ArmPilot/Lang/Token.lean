import ArmPilot.Lang.Position
import ArmPilot.Text.Digits

/-!
# Tokens

The words and marks of the script language, which of them may stand before an operand, how tightly the
operators bind, and which words are reserved or switched off.
-/

namespace ArmPilot
namespace Lang

/-- Words with a meaning of their own. -/
inductive Keyword where
  | trueWord | falseWord | letWord | constWord | ifWord | elseWord | switchWord | doWord | whileWord
  | untilWord | loopWord | forWord | inWord | notIn | continueWord | breakWord | returnWord | throwWord
  | tryWord | catchWord | fnWord | privateWord | asWord | underscore
deriving Repr, DecidableEq

/-- Punctuation and operators. -/
inductive Mark where
  | leftBrace | rightBrace | leftParen | rightParen | leftBracket | rightBracket | unit | mapStart
  | semicolon | colon | doubleColon | comma | period | elvis | questionBracket | doubleArrow | pipe | orOr
  | plus | minus | unaryPlus | unaryMinus | times | divide | modulo | power | shiftLeft | shiftRight
  | equals | equalsTo | notEquals | less | lessEq | greater | greaterEq | bang | andAnd | ampersand | caret
  | coalesce | range | rangeInclusive
  | plusAssign | minusAssign | timesAssign | divideAssign | moduloAssign | powerAssign
  | shiftLeftAssign | shiftRightAssign | andAssign | orAssign | xorAssign
deriving Repr, DecidableEq

/-- The spelling of a keyword. -/
def Keyword.text : Keyword → String
  | .trueWord => "true" | .falseWord => "false" | .letWord => "let" | .constWord => "const"
  | .ifWord => "if" | .elseWord => "else" | .switchWord => "switch" | .doWord => "do"
  | .whileWord => "while" | .untilWord => "until" | .loopWord => "loop" | .forWord => "for"
  | .inWord => "in" | .notIn => "!in" | .continueWord => "continue" | .breakWord => "break"
  | .returnWord => "return" | .throwWord => "throw" | .tryWord => "try" | .catchWord => "catch"
  | .fnWord => "fn" | .privateWord => "private" | .asWord => "as" | .underscore => "_"

/-- The spelling of a mark. -/
def Mark.text : Mark → String
  | .leftBrace => "\x7b" | .rightBrace => "\x7d" | .leftParen => "(" | .rightParen => ")"
  | .leftBracket => "[" | .rightBracket => "]" | .unit => "()" | .mapStart => "#\x7b"
  | .semicolon => ";" | .colon => ":" | .doubleColon => "::" | .comma => "," | .period => "."
  | .elvis => "?." | .questionBracket => "?[" | .doubleArrow => "=>" | .pipe => "|" | .orOr => "||"
  | .plus => "+" | .minus => "-" | .unaryPlus => "+" | .unaryMinus => "-" | .times => "*"
  | .divide => "/" | .modulo => "%" | .power => "**" | .shiftLeft => "<<" | .shiftRight => ">>"
  | .equals => "=" | .equalsTo => "==" | .notEquals => "!=" | .less => "<" | .lessEq => "<="
  | .greater => ">" | .greaterEq => ">=" | .bang => "!" | .andAnd => "&&" | .ampersand => "&"
  | .caret => "^" | .coalesce => "??" | .range => ".." | .rangeInclusive => "..="
  | .plusAssign => "+=" | .minusAssign => "-=" | .timesAssign => "*=" | .divideAssign => "/="
  | .moduloAssign => "%=" | .powerAssign => "**=" | .shiftLeftAssign => "<<=" | .shiftRightAssign => ">>="
  | .andAssign => "&=" | .orAssign => "|=" | .xorAssign => "^="

/-- Why characters form no token. -/
inductive LexFault where
  | unexpected (text : String)
  | unterminatedString
  | stringTooLong (limit : Nat)
  | malformedEscape (text : String)
  | malformedNumber (text : String)
  | malformedChar (text : String)
  | malformedIdentifier (text : String)
  | improper (advice : String)
  | misplaced (mark : String)
deriving Repr, DecidableEq

/-- The wording of a token fault. -/
def LexFault.message : LexFault → String
  | .unexpected s => "Unexpected '" ++ s ++ "'"
  | .unterminatedString => "Open string is not terminated"
  | .stringTooLong n => "Length of string literal exceeds the maximum limit (" ++ toString n ++ ")"
  | .malformedEscape s => "Invalid escape sequence: '" ++ s ++ "'"
  | .malformedNumber s => "Invalid number: '" ++ s ++ "'"
  | .malformedChar s => "Invalid character: '" ++ s ++ "'"
  | .malformedIdentifier s => "Variable name is not proper: '" ++ s ++ "'"
  | .improper advice => advice
  | .misplaced s => "Invalid symbol encountered: '" ++ s ++ "'"

/-- A token of a script. -/
inductive Token where
  | int (n : Int)
  | float (x : Float) (text : String)
  | char (c : Char)
  | string (s : String)
  /-- Text in front of an embedded block. -/
  | textPart (s : String)
  | identifier (name : String)
  | word (k : Keyword)
  | mark (m : Mark)
  /-- A word or symbol that is kept for later. -/
  | reserved (text : String)
  | fault (f : LexFault)
  | ended
deriving Repr, BEq

/-- How a token is named in messages. -/
def Token.text : Token → String
  | .int n => toString n
  | .float _ s => s
  | .char c => String.singleton c
  | .string s => "\"" ++ s ++ "\""
  | .textPart _ => "string"
  | .identifier s => s
  | .word k => k.text
  | .mark m => m.text
  | .reserved s => s
  | .fault f => f.message
  | .ended => "\x7bEOF\x7d"

namespace Keyword

/-- Keywords by their spelling; the negated `in` is spelt with a mark and read by the lexer. -/
def ofText? : String → Option Keyword
  | "true" => some .trueWord | "false" => some .falseWord | "let" => some .letWord
  | "const" => some .constWord | "if" => some .ifWord | "else" => some .elseWord
  | "switch" => some .switchWord | "do" => some .doWord | "while" => some .whileWord
  | "until" => some .untilWord | "loop" => some .loopWord | "for" => some .forWord
  | "in" => some .inWord | "continue" => some .continueWord | "break" => some .breakWord
  | "return" => some .returnWord | "throw" => some .throwWord | "try" => some .tryWord
  | "catch" => some .catchWord | "fn" => some .fnWord | "private" => some .privateWord
  | "as" => some .asWord | "_" => some .underscore
  | _ => none

end Keyword

/-- Words that name a built-in function and are switched off. -/
def disabledFunctions : List String := ["eval", "Fn", "call", "curry", "is_def_fn", "is_def_var"]

/-- Statement words that are switched off, and are reserved for that reason. -/
def disabledStatements : List String := ["import", "export"]

/-- Words kept for later, without a use. -/
def unusedWords : List String :=
  ["public", "protected", "super", "new", "use", "module", "package", "var", "static", "shared", "with",
   "is", "goto", "match", "case", "default", "void", "null", "nil", "spawn", "thread", "go", "sync",
   "async", "await", "yield"]

/-- Words kept as names of functions of the language itself. -/
def functionWords : List String := ["print", "debug", "type_of", "is_shared"]

/-- Whether a word is reserved, the disabled ones included. -/
def isReservedWord (s : String) : Bool :=
  unusedWords.contains s || functionWords.contains s || disabledStatements.contains s || s = "this"
    || disabledFunctions.contains s

/-- Whether a reserved word may be called as a function. -/
def isCallableWord (s : String) : Bool := functionWords.contains s

/-- Whether a reserved word may be called as a method. -/
def isMethodWord (s : String) : Bool := s = "type_of" || s = "is_shared"

/-- Whether a character may start a name. -/
def isNameStart (c : Char) : Bool :=
  (97 ≤ c.toNat && c.toNat ≤ 122) || (65 ≤ c.toNat && c.toNat ≤ 90)

/-- Whether a character may continue a name. -/
def isNamePart (c : Char) : Bool := isNameStart c || Text.isDigit c || c = '_'

/-- Whether characters form a name: letters, digits and underscores, with a letter before any digit. -/
def isProperName : List Char → Bool
  | [] => false
  | c :: rest =>
    if c = '_' then isProperName rest
    else isNameStart c && rest.all isNamePart

/-- The operator that an assignment with an operator applies. -/
def Mark.assigned? : Mark → Option Mark
  | .plusAssign => some .plus | .minusAssign => some .minus | .timesAssign => some .times
  | .divideAssign => some .divide | .moduloAssign => some .modulo | .powerAssign => some .power
  | .shiftLeftAssign => some .shiftLeft | .shiftRightAssign => some .shiftRight
  | .andAssign => some .ampersand | .orAssign => some .pipe | .xorAssign => some .caret
  | _ => none

/-- How tightly a token binds as an infix operator; zero if it is none. -/
def Token.precedence : Token → Nat
  | .mark .orOr => 30 | .mark .caret => 30 | .mark .pipe => 30
  | .mark .andAnd => 60 | .mark .ampersand => 60
  | .mark .equalsTo => 90 | .mark .notEquals => 90
  | .word .inWord => 110 | .word .notIn => 110
  | .mark .less => 130 | .mark .lessEq => 130 | .mark .greater => 130 | .mark .greaterEq => 130
  | .mark .coalesce => 135
  | .mark .range => 140 | .mark .rangeInclusive => 140
  | .mark .plus => 150 | .mark .minus => 150
  | .mark .divide => 180 | .mark .times => 180 | .mark .modulo => 180
  | .mark .power => 190
  | .mark .shiftLeft => 210 | .mark .shiftRight => 210
  | _ => 0

/-- Whether a token may stand at the start of an expression; one with a fault of its own may, to tell it. -/
def Token.startsExpression : Token → Bool
  | .int _ | .float _ _ | .char _ | .string _ | .textPart _ | .identifier _ | .reserved _ | .fault _ => true
  | .word k =>
    match k with
    | .trueWord | .falseWord | .ifWord | .switchWord | .doWord | .whileWord | .loopWord | .forWord => true
    | _ => false
  | .mark m =>
    match m with
    | .unit | .leftParen | .leftBracket | .leftBrace | .mapStart | .pipe | .orOr | .bang | .plus | .minus | .unaryPlus
    | .unaryMinus | .range | .rangeInclusive => true
    | _ => false
  | .ended => false

/-- Whether operators of equal strength group to the right. -/
def Token.bindsRight (t : Token) : Bool := t == .mark .power

/-- Whether a plus or minus behind a token is a sign. -/
def Token.precedesSign : Token → Bool
  | .fault _ => true
  | .word k =>
    match k with
    | .ifWord | .whileWord | .untilWord | .inWord | .notIn | .returnWord | .throwWord => true
    | _ => false
  | .mark m =>
    match m with
    | .rightBrace | .rightParen | .rightBracket | .unit | .mapStart | .period | .elvis | .doubleColon
    | .doubleArrow => false
    | .caret => true
    | _ => true
  | _ => false

end Lang
end ArmPilot
