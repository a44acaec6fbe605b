import ArmPilot.Lang.Library.Walks

/-!
# Members, items and bits

Reading and writing what lies in a value under an index.  Arrays and texts take integers, which count from
the end if they are negative; maps take texts; an integer holds its bits.  Bytes are read as integers.
-/

namespace ArmPilot
namespace Lang

/-- The bit of a word that an index names. -/
def bitIndex? (i : Int) : Option Nat := indexIn? 64 i

/-- The mismatch of an index that must be an integer. -/
def integerWanted (i : Value) : Cause := .typeMismatch "i64" i.fullTypeName

/-- A field of bits in a word. -/
structure BitField where
  start : Nat
  count : Nat

namespace BitField

/-- The field that a range names.  Its ends must be bits of a word, but a range that is open to the right ends with the
last bit. -/
def ofRange (first last : Int) (inclusive : Bool) : Except Cause BitField := do
  let start ← bit first
  let stop ← if last = Word.greatest then pure (if inclusive then 63 else 64) else bit last
  let stop := if inclusive then stop + 1 else stop
  return if start < stop then ⟨start, stop - start⟩ else ⟨0, 0⟩
where
  bit (i : Int) : Except Cause Nat := if 0 ≤ i ∧ i < 64 then .ok i.toNat else .error (.bitBounds i)

/-- The lowest bits of a word, as many as the field has. -/
def low (f : BitField) (n : Int) : Nat := Word.bits n % Nat.pow 2 f.count

/-- The bits of a word in the field, without those around them. -/
def raw (f : BitField) (n : Int) : Nat := Word.bits n / Nat.pow 2 f.start % Nat.pow 2 f.count

/-- The bits of a word in the field as a number, which is negative if the field has the sign of the word and it is set. -/
def get (f : BitField) (n : Int) : Int :=
  Int.fdiv (Word.wrap (f.raw n * Nat.pow 2 f.start : Nat)) (Nat.pow 2 f.start : Nat)

/-- A word with the field set to the lowest bits of another. -/
def set (f : BitField) (n v : Int) : Int :=
  Word.wrap ((Word.bits n - f.raw n * Nat.pow 2 f.start + f.low v * Nat.pow 2 f.start : Nat) : Int)

end BitField

/-- An end of a range of characters, which counts from the end of the text if it is negative. -/
def sliceEnd (size : Nat) (i : Int) : Nat := if i < 0 then size - min size i.natAbs else i.toNat

/-- The characters in a range of places, with those in front and behind. -/
def pieceOf (cs : List Char) (first last : Int) (inclusive : Bool) : List Char × List Char × List Char :=
  let start := sliceEnd cs.length first
  let stop := sliceEnd cs.length last + if inclusive then 1 else 0
  (cs.take start, (cs.drop start).take (stop - start), cs.drop stop)

/-- What lies under an index; `none` says that the value has no items. -/
def Value.item? (base index : Value) : Option Outcome :=
  match base, index with
  | .array vs, .int i =>
    match (indexIn? vs.length i).bind (vs[·]?) with
    | some v => some (.ok v)
    | none => some (.error (.arrayBounds vs.length i))
  | .array _, i => some (.error (integerWanted i))
  | .bytes bs, .int i =>
    match (indexIn? bs.length i).bind (bs[·]?) with
    | some b => some (.ok (.int b.toNat))
    | none => some (.error (.arrayBounds bs.length i))
  | .bytes _, i => some (.error (integerWanted i))
  | .map ms, .string k => some (.ok ((Json.find? k ms).getD .unit))
  | .map _, i => some (.error (.typeMismatch "string" i.fullTypeName))
  | .string s, .int i =>
    let cs := s.toList
    match (indexIn? cs.length i).bind (cs[·]?) with
    | some c => some (.ok (.char c))
    | none => some (.error (.textBounds cs.length i))
  | .string s, .range a b inclusive => some (.ok (.string (String.ofList (pieceOf s.toList a b inclusive).2.1)))
  | .string _, i => some (.error (integerWanted i))
  | .int n, .int i =>
    match bitIndex? i with
    | some k => some (.ok (.bool ((Word.bits n).testBit k)))
    | none => some (.error (.bitBounds i))
  | .int n, .range a b inclusive => some ((BitField.ofRange a b inclusive).map fun f => .int (f.get n))
  | .int _, i => some (.error (integerWanted i))
  | _, _ => none

/-- A word with one bit set to a value. -/
def setBit (n : Int) (k : Nat) (b : Bool) : Int :=
  let bits := Word.bits n
  if bits.testBit k = b then n
  else Word.wrap ((if b then bits + Nat.pow 2 k else bits - Nat.pow 2 k : Nat) : Int)

/-- A value with another under an index; `none` says that the value has no items. -/
def Value.setItem? (base index new : Value) : Option Outcome :=
  match base, index with
  | .array vs, .int i =>
    match indexIn? vs.length i with
    | some k => some (.ok (.array (vs.set k new)))
    | none => some (.error (.arrayBounds vs.length i))
  | .array _, i => some (.error (integerWanted i))
  | .bytes bs, .int i =>
    match indexIn? bs.length i, new with
    | some k, .int n => some (.ok (.bytes (bs.set k (lowByte n))))
    | some _, v => some (.error (.typeMismatch "INT" v.fullTypeName))
    | none, _ => some (.error (.arrayBounds bs.length i))
  | .bytes _, i => some (.error (integerWanted i))
  | .map ms, .string k => some (.ok (.map (Json.insert k new ms)))
  | .map _, i => some (.error (.typeMismatch "string" i.fullTypeName))
  | .string s, .int i =>
    let cs := s.toList
    match indexIn? cs.length i, new with
    | some k, .char c => some (.ok (.string (String.ofList (cs.set k c))))
    | some _, v => some (.error (.typeMismatch "char" v.fullTypeName))
    | none, _ => some (.error (.textBounds cs.length i))
  | .string s, .range a b inclusive =>
    let (front, _, back) := pieceOf s.toList a b inclusive
    some (.ok (.string (String.ofList (front ++ new.text.toList ++ back))))
  | .string _, i => some (.error (integerWanted i))
  | .int n, .int i =>
    match bitIndex? i, new with
    | some k, .bool b => some (.ok (.int (setBit n k b)))
    | some _, v => some (.error (.typeMismatch "bool" v.fullTypeName))
    | none, _ => some (.error (.bitBounds i))
  | .int n, .range a b inclusive =>
    some (do
      let f ← BitField.ofRange a b inclusive
      match new with
      | .int v => return .int (f.set n v)
      | v => throw (.typeMismatch "integer" v.fullTypeName))
  | .int _, i => some (.error (integerWanted i))
  | _, _ => none

/-- The values that a loop runs through, as far as they are known at its start. -/
inductive Walk where
  | list (vs : List Value)
  | range (next last : Int)
  | stream (s : Stream)

/-- The values that a loop over a value runs through. -/
def Walk.of? : Value → Option Walk
  | .array vs => some (.list vs)
  | .string s => some (.stream (.chars s.toList))
  | .range a b false => some (.range a b)
  | .range a b true => some (.range a (b + 1))
  | .stream s => some (.stream s)
  | _ => none

/-- The next value of a walk, and the rest. -/
def Walk.next? : Walk → Option (Value × Walk)
  | .list [] => none
  | .list (v :: rest) => some (v, .list rest)
  | .range a b => if a < b then some (.int a, .range (a + 1) b) else none
  | .stream s => s.next?.map fun (v, rest) => (v, .stream rest)

end Lang
end ArmPilot
