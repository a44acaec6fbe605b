import ArmPilot.Lang.Numeral
import ArmPilot.Lang.Quoted

/-!
# Splitting a script into tokens

`tokenize` reads a script from left to right.  A fault is a token like any other, so that a script is
refused at its first fault only if the parser gets that far.  Text between backquotes may hold embedded
blocks; the lexer keeps a stack of open braces to know which closing brace returns to the text.
-/

namespace ArmPilot
namespace Lang

/-- What the language says to a symbol of another one. -/
def adviceFor? : String → Option String
  | "===" => some "'===' is not a valid operator. This is not JavaScript! Should it be '=='?"
  | "!==" => some "'!==' is not a valid operator. This is not JavaScript! Should it be '!='?"
  | "->" => some "'->' is not a valid symbol. This is not C or C++!"
  | "<-" => some "'<-' is not a valid symbol. This is not Go! Should it be '<='?"
  | ":=" => some "':=' is not a valid assignment operator. This is not Go or Pascal! Should it be simply '='?"
  | ":;" => some "':;' is not a valid symbol. Should it be '::'?"
  | "::<" => some "'::<>' is not a valid symbol. This is not Rust! Should it be '::'?"
  | "(*" => some "'(* .. *)' is not a valid comment format. This is not Pascal! Should it be '/* .. */'?"
  | "*)" => some "'(* .. *)' is not a valid comment format. This is not Pascal! Should it be '/* .. */'?"
  | "# \x7b" => some "'#' is not a valid symbol. Should it be '#\x7b'?"
  | _ => none

/-- A reserved word or symbol, as a fault if it is known to be a mistake or is switched off. -/
def reservedToken (s : String) : Token :=
  match adviceFor? s with
  | some advice => .fault (.improper advice)
  | none =>
    if disabledFunctions.contains s then .fault (.improper ("reserved keyword '" ++ s ++ "' is disabled"))
    else .reserved s

/-- A word of the script. -/
def wordToken (cs : List Char) : Token :=
  let s := String.ofList cs
  match Keyword.ofText? s with
  | some .trueWord => .word .trueWord
  | some k => .word k
  | none =>
    if isReservedWord s then reservedToken s
    else if isProperName cs then .identifier s
    else .fault (.malformedIdentifier s)

/-- Symbols of three characters, then two, then one, as marks. -/
def markTable : List (List Char × Token) :=
  let m (s : String) (k : Mark) : List Char × Token := (s.toList, .mark k)
  let r (s : String) : List Char × Token := (s.toList, reservedToken s)
  [m "**=" .powerAssign, m "..=" .rangeInclusive, r "...", r "===", r "!==", m "<<=" .shiftLeftAssign,
   m ">>=" .shiftRightAssign, r "::<", r "# \x7b",
   m "()" .unit, r "(*", m "#\x7b" .mapStart, r "#!", m "+=" .plusAssign, r "++", m "-=" .minusAssign,
   r "->", r "--", r "*)", m "*=" .timesAssign, m "**" .power, m "/=" .divideAssign, m ".." .range,
   m "==" .equalsTo, m "=>" .doubleArrow, m "<=" .lessEq, r "<-", m "<<" .shiftLeft, r "<|",
   m ">=" .greaterEq, m ">>" .shiftRight, m "!=" .notEquals, r "!.", m "||" .orOr, m "|=" .orAssign,
   r "|>", m "&&" .andAnd, m "&=" .andAssign, m "^=" .xorAssign, m "%=" .moduloAssign, m "?." .elvis,
   m "??" .coalesce, m "?[" .questionBracket, m "::" .doubleColon, r ":=", r ":;",
   m "\x7b" .leftBrace, m "\x7d" .rightBrace, m "(" .leftParen, m ")" .rightParen, m "[" .leftBracket,
   m "]" .rightBracket, r "#", m "+" .plus, m "-" .minus, m "*" .times, m "/" .divide, m ";" .semicolon,
   m "," .comma, m "." .period, m "=" .equals, m "<" .less, m ">" .greater, m "!" .bang, m "|" .pipe,
   m "&" .ampersand, m "^" .caret, r "~", m "%" .modulo, r "@", r "$", r "?", m ":" .colon]

/-- The longest symbol at the start of a text. -/
def readMark? (s : Scan) : Option (Token × Scan) :=
  (markTable.find? fun entry => entry.1.isPrefixOf s.rest).map fun entry =>
    (entry.2, ⟨s.rest.drop entry.1.length, ⟨s.at_.line, s.at_.column + entry.1.length⟩⟩)

/-- One token, its position, and the rest; blanks and comments in front of it are passed over. -/
def readToken (limit : Nat) (signed : Bool) : Nat → Scan → Token × Position × Scan × Bool
  | 0, s => (.ended, s.at_.advance, s, false)
  | fuel + 1, s =>
    let again := readToken limit signed fuel
    match s.rest with
    | [] => (.ended, s.at_.advance, s, false)
    | c :: rest =>
      let start := s.at_.advance
      if c = '\n' then again ⟨rest, s.at_.newLine⟩
      else if Text.isDigit c then number false start s
      else if isNameStart c ∨ c = '_' then
        let (cs, s) := s.takeWhile isNamePart
        (wordToken cs, start, s, false)
      else if c = '"' then quoted .double start s.step
      else if c = '\x60' then
        let s := s.step
        quoted .back start (match s.rest with
          | '\r' :: '\n' :: rest => ⟨rest, s.at_.newLine⟩
          | '\r' :: rest => ⟨rest, s.at_.newLine⟩
          | '\n' :: rest => ⟨rest, s.at_.newLine⟩
          | _ => s)
      else if c = '#' ∧ (rest.head? = some '"' ∨ rest.head? = some '#') then
        match readHashed limit start s with
        | .error (f, p) => (.fault f, p, ⟨[], s.at_⟩, false)
        | .ok r => (.string (String.ofList r.text), start, r.rest, false)
      else if c = '\'' then
        match rest with
        | '\'' :: _ => (.fault (.malformedChar ""), start, s.step.step, false)
        | _ => quoted .single start s.step
      else if c = '/' ∧ rest.head? = some '/' then again (skipLineComment (rest.drop 1) start.advance)
      else if c = '/' ∧ rest.head? = some '*' then again (skipBlockComment (rest.drop 1) start.advance 1)
      else if isSeparator c then again s.step
      else if c = '-' ∧ signed ∧ (rest.head?.map Text.isDigit).getD false then number true start s.step
      else if c = '!' ∧ rest.take 2 = ['i', 'n'] ∧ !((rest.drop 2).head?.map isNamePart).getD false then
        (.word .notIn, start, s.step.step.step, false)
      else
        match readMark? s with
        | some (.mark .plus, s) => (.mark (if signed then .unaryPlus else .plus), start, s, false)
        | some (.mark .minus, s) => (.mark (if signed then .unaryMinus else .minus), start, s, false)
        | some (t, s) => (t, start, s, false)
        | none => (.fault (.unexpected (String.singleton c)), start, s.step, false)
where
  /-- A number as a token, from its first digit on. -/
  number (negative : Bool) (start : Position) (s : Scan) : Token × Position × Scan × Bool :=
    let n := Numeral.spell (s.rest.take 1) none false (s.rest.drop 1)
    (n.token negative, start, s.goTo n.rest, false)
  /-- A quoted text as a token; the flag says that an embedded block follows. -/
  quoted (q : Quoting) (start : Position) (s : Scan) : Token × Position × Scan × Bool :=
    match readQuoted q limit start (s.rest.length + 1) [] 0 none 0 s with
    | .error (f, p) => (.fault f, p, ⟨[], s.at_⟩, false)
    | .ok r =>
      if r.unfinished then (.fault .unterminatedString, start, r.rest, false)
      else if q.close = '\'' then
        match r.text with
        | [ch] => (.char ch, start, r.rest, false)
        | cs => (.fault (.malformedChar (String.ofList cs)), start, r.rest, false)
      else if r.embedded then (.textPart (String.ofList r.text), start, r.rest, true)
      else (.string (String.ofList r.text), start, r.rest, false)

/-- The text behind an embedded block, at the place of its first character.  A script that ends right behind the
block has no such text. -/
def readTextPart (limit : Nat) (s : Scan) : Token × Position × Scan × Bool :=
  match readQuoted .back limit s.at_ (s.rest.length + 1) [] 0 none 0 s with
  | .error (f, p) => (.fault f, p, ⟨[], s.at_⟩, false)
  | .ok r =>
    let place := r.begins.getD s.at_
    if r.unfinished then
      (if r.begins.isSome then .fault .unterminatedString else .ended, place, r.rest, false)
    else if r.embedded then (.textPart (String.ofList r.text), place, r.rest, true)
    else (.string (String.ofList r.text), place, r.rest, false)

/-- All tokens.  `open_` counts the braces open in each embedded block, the innermost first. -/
def tokensFrom (limit : Nat) : Nat → Bool → List Nat → Bool → Scan → List (Token × Position)
  | 0, _, _, _, s => [(.ended, s.at_.advance)]
  | fuel + 1, signed, open_, inText, s =>
    let (t, p, s, embedded) :=
      if inText then readTextPart limit s else readToken limit signed (s.rest.length + 1) s
    if t == .ended then [(t, p)]
    else if embedded then (t, p) :: tokensFrom limit fuel t.precedesSign (0 :: open_) false s
    else
      match t, open_ with
      | .mark .leftBrace, n :: below => (t, p) :: tokensFrom limit fuel true ((n + 1) :: below) false s
      | .mark .mapStart, n :: below => (t, p) :: tokensFrom limit fuel false ((n + 1) :: below) false s
      | .mark .rightBrace, 1 :: below => (t, p) :: tokensFrom limit fuel false below true s
      | .mark .rightBrace, (n + 2) :: below => (t, p) :: tokensFrom limit fuel false ((n + 1) :: below) false s
      | _, _ => (t, p) :: tokensFrom limit fuel t.precedesSign open_ false s

/-- The tokens of a script, the last of which says that it ended.  `limit` bounds the bytes of a text, zero
meaning no bound. -/
def tokenize (limit : Nat) (text : String) : List (Token × Position) :=
  let cs := text.toList
  tokensFrom limit (2 * cs.length + 2) true [] false ⟨cs, Position.start⟩

end Lang
end ArmPilot
