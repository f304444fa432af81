import Mathlib.Data.List.TakeWhile
import Mathlib.Tactic.IntervalCases
import Synod.Json.Scan
import Synod.Proofs.JsonText

/-! Whole numbers as text. A natural number that fits a word is read back from its digits, whatever stands behind
them, as long as that does not look like more of the number. -/

namespace Synod.Json.Number

def digitByte (digit : Nat) : UInt8 := (48 + digit).toUInt8

private theorem bytesOf_digitChar {digit : Nat} (small : digit < 10) :
    bytesOf (String.singleton digit.digitChar) = [digitByte digit] := by
  revert digit
  decide

theorem bytes_whole_small {n : Nat} (small : n < 10) : (whole n).bytes = [digitByte n] := by
  change bytesOf n.repr = _
  rw [Nat.repr_of_lt small, bytesOf_digitChar small]

theorem bytes_whole_large {n : Nat} (large : 10 ≤ n) :
    (whole n).bytes = (whole (n / 10 : Nat)).bytes ++ [digitByte (n % 10)] := by
  change bytesOf n.repr = bytesOf (n / 10).repr ++ _
  have last : n % 10 < 10 := Nat.mod_lt n (by decide)
  rw [Nat.repr_of_ge large, bytesOf, String.toByteArray_append, ByteArray.data_append, Array.toList_append]
  exact congrArg _ (bytesOf_digitChar last)

private theorem isDigit_digitByte {digit : Nat} (small : digit < 10) : isDigit (digitByte digit) = true := by
  revert digit
  decide

private theorem digits_digitByte {digit : Nat} (small : digit < 10) : digits [digitByte digit] = [digit] := by
  revert digit
  decide

private theorem digits_append (first second : List UInt8) : digits (first ++ second) = digits first ++ digits second :=
  List.map_append

/-- The digits of a number in order. Only zero itself begins with the digit zero. -/
structure Decimal (n : Nat) (first : UInt8) (rest : List UInt8) : Prop where
  bytes : (whole n).bytes = first :: rest
  digit : ∀ byte ∈ first :: rest, isDigit byte = true
  leading : n ≠ 0 ∧ startByte first = (.number .whole [first], []) ∨ n = 0 ∧ first = 48 ∧ rest = []
  value : (digits (first :: rest)).foldl (fun value digit => value * 10 + digit) 0 = n

private theorem startByte_digit {digit : Nat} (positive : 0 < digit) (small : digit < 10) :
    startByte (digitByte digit) = (.number .whole [digitByte digit], []) := by
  interval_cases digit <;> rfl

private theorem decimal (n : Nat) : ∃ first rest, Decimal n first rest := by
  induction n using Nat.strongRecOn with
  | _ n ih =>
    by_cases small : n < 10
    · refine ⟨digitByte n, [], bytes_whole_small small, by simpa using isDigit_digitByte small, ?_, ?_⟩
      · by_cases zero : n = 0
        · subst zero
          exact .inr ⟨rfl, rfl, rfl⟩
        · exact .inl ⟨zero, startByte_digit (Nat.pos_of_ne_zero zero) small⟩
      · simp [digits_digitByte small]
    · -- The last digit stands behind those of the tenth part, which is not zero and keeps its first digit in front.
      have large := Nat.not_lt.1 small
      have last : n % 10 < 10 := Nat.mod_lt n (by decide)
      obtain ⟨first, rest, bytes, digit, leading, value⟩ := ih (n / 10) (by omega)
      rcases leading with ⟨_, starts⟩ | ⟨zero, _⟩
      · refine ⟨first, rest ++ [digitByte (n % 10)], ?_, ?_, .inl ⟨by omega, starts⟩, ?_⟩
        · rw [bytes_whole_large large, bytes, List.cons_append]
        · intro byte member
          rw [← List.cons_append] at member
          rcases List.mem_append.1 member with member | member
          · exact digit byte member
          · rw [List.mem_singleton.1 member]
            exact isDigit_digitByte last
        · rw [← List.cons_append, digits_append, List.foldl_append, value, digits_digitByte last]
          simp only [List.foldl_cons, List.foldl_nil]
          omega
      · omega

private theorem le_foldl (ds : List Nat) (value : Nat) :
    value ≤ ds.foldl (fun value digit => value * 10 + digit) value := by
  induction ds generalizing value with
  | nil => exact Nat.le_refl value
  | cons digit rest ih => exact Nat.le_trans (by omega) (ih (value * 10 + digit))

private theorem collect_fits (ds : List Nat) (value : Nat)
    (fits : ds.foldl (fun value digit => value * 10 + digit) value < UInt64.size) :
    collect value ds = (ds.foldl (fun value digit => value * 10 + digit) value, []) := by
  induction ds generalizing value with
  | nil => rfl
  | cons digit rest ih =>
    have next : value * 10 + digit < UInt64.size := Nat.lt_of_le_of_lt (le_foldl rest _) fits
    rw [collect, if_pos next]
    exact ih _ fits

theorem Decimal.value?_eq {n : Nat} {first : UInt8} {rest : List UInt8} (text : Decimal n first rest)
    (fits : n < UInt64.size) : (Parts.ofBytes (first :: rest)).value? = some (whole n) := by
  have unsigned : first ≠ 45 := by
    rintro rfl
    exact absurd (text.digit 45 (by simp)) (by decide)
  have all : (first :: rest).takeWhile isDigit = first :: rest := List.takeWhile_eq_self_iff.2 text.digit
  have none : (first :: rest).dropWhile isDigit = [] := List.dropWhile_eq_nil_iff.2 text.digit
  have parts : Parts.ofBytes (first :: rest) = ⟨false, digits (first :: rest), [], .none, false⟩ := by
    simp [Parts.ofBytes, unsigned, all, none, digits]
  have collected := collect_fits (digits (first :: rest)) 0 (by rwa [text.value])
  rw [text.value] at collected
  simp [parts, Parts.value?, collected]

end Synod.Json.Number

namespace Synod.Json

open Number (Decimal isDigit)

def endsNumber (byte : UInt8) : Bool := isBlank byte || byte = 44 || byte = 93 || byte = 125

/-- What may stand behind a number: nothing, or a byte that ends it. -/
def Behind (text : List UInt8) : Prop := ∀ byte ∈ text.head?, endsNumber byte = true

private theorem endsNumber_cases {byte : UInt8} (ends : endsNumber byte = true) :
    byte = 32 ∨ byte = 10 ∨ byte = 13 ∨ byte = 9 ∨ byte = 44 ∨ byte = 93 ∨ byte = 125 := by
  simpa [endsNumber, isBlank, or_assoc] using ends

private theorem NumberStage.zero_ends {byte : UInt8} (ends : endsNumber byte = true) :
    zero.next byte = none ∧ zero.endsBefore byte = true := by
  rcases endsNumber_cases ends with rfl | rfl | rfl | rfl | rfl | rfl | rfl <;> decide

private theorem NumberStage.whole_ends {byte : UInt8} (ends : endsNumber byte = true) :
    whole.next byte = none ∧ whole.endsBefore byte = true := by
  rcases endsNumber_cases ends with rfl | rfl | rfl | rfl | rfl | rfl | rfl <;> decide

private theorem NumberStage.whole_next {byte : UInt8} (digit : isDigit byte = true) : whole.next byte = some whole := by
  simp only [isDigit] at digit
  simp [next, digit]

theorem scanFrom_number_ends {stage : NumberStage} {bytes text : List UInt8} {found : List Token}
    (complete : stage.complete = true)
    (ends : ∀ byte ∈ text.head?, stage.next byte = none ∧ stage.endsBefore byte = true) :
    scanFrom (.number stage bytes) found text = scanFrom .between (numberToken bytes :: found) text := by
  cases text with
  | nil => simp [scanFrom, Mode.finish, complete]
  | cons byte rest =>
    obtain ⟨refused, free⟩ := ends byte rfl
    simp [scanFrom, Mode.step, refused, free]

private theorem scanFrom_digits {digits bytes text : List UInt8} {found : List Token}
    (digit : ∀ byte ∈ digits, isDigit byte = true) : scanFrom (.number .whole bytes) found (digits ++ text) =
      scanFrom (.number .whole (digits.reverse ++ bytes)) found text := by
  induction digits generalizing bytes with
  | nil => rfl
  | cons byte rest ih =>
    have next := NumberStage.whole_next (digit byte (by simp))
    rw [List.cons_append, scanFrom]
    simp only [Mode.step, next]
    rw [List.reverse_nil, List.nil_append, ih fun other member => digit other (by simp [member])]
    simp

/-- The digits of a number that fits a word are one token, and that number's. -/
theorem scanFrom_whole {n : Nat} (fits : n < UInt64.size) {text : List UInt8} (behind : Behind text)
    (found : List Token) : scanFrom .between found ((Number.whole n).bytes ++ text) =
      scanFrom .between (.number (some (.whole n)) :: found) text := by
  obtain ⟨first, rest, decimal⟩ := Number.decimal n
  have token : numberToken (rest.reverse ++ [first]) = .number (some (.whole n)) := by
    rw [numberToken, List.reverse_append, List.reverse_reverse, List.reverse_singleton, List.singleton_append,
      decimal.value?_eq fits]
  rw [decimal.bytes, List.cons_append, scanFrom, Mode.step]
  rcases decimal.leading with ⟨_, starts⟩ | ⟨_, rfl, rfl⟩
  · simp only [starts]
    rw [scanFrom_digits fun byte member => decimal.digit byte (by simp [member]),
      scanFrom_number_ends rfl fun byte next => NumberStage.whole_ends (behind byte next), token]
    rfl
  · have starts : startByte 48 = (.number .zero [48], []) := rfl
    simp only [starts]
    rw [List.nil_append, scanFrom_number_ends rfl fun byte next => NumberStage.zero_ends (behind byte next)]
    exact congrArg (scanFrom .between · text) (congrArg (· :: found) token)

end Synod.Json
