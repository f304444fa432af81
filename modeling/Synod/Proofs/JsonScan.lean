import Synod.Proofs.DecimalText

/-! The scanner finds the tokens of a value again in every text of the value. Such a text may have blanks between its
tokens and escapes in its strings that the writer would not use. -/

namespace Synod.Json

def code? : List UInt8 → Option Nat
  | [a, b, c, d] => do
    return (((← hexValue? a) * 16 + (← hexValue? b)) * 16 + (← hexValue? c)) * 16 + (← hexValue? d)
  | _ => none

/-- The content of a string and a text for it. Quotes, backslashes and control characters must be escaped and all
other characters may be, those beyond `FFFF` as a pair of codes. -/
inductive Content : List UInt8 → List UInt8 → Prop where
  | nil : Content [] []
  | byte {byte : UInt8} {content text : List UInt8} (printed : 32 ≤ byte) (plain : byte ≠ 34 ∧ byte ≠ 92)
    (rest : Content content text) : Content (byte :: content) (byte :: text)
  | letter {letter byte : UInt8} {content text : List UInt8} (named : letterValue? letter = some byte)
    (rest : Content content text) : Content (byte :: content) (92 :: letter :: text)
  | code {digits : List UInt8} {code : Nat} {content text : List UInt8} (named : code? digits = some code)
    (single : code < 0xD800 ∨ 0xDFFF < code) (rest : Content content text) :
    Content (String.utf8EncodeChar (Char.ofNat code) ++ content) (92 :: 117 :: (digits ++ text))
  | pair {digits digits' : List UInt8} {first second : Nat} {content text : List UInt8}
    (named : code? digits = some first) (named' : code? digits' = some second)
    (high : 0xD800 ≤ first ∧ first ≤ 0xDBFF) (low : 0xDC00 ≤ second ∧ second ≤ 0xDFFF) (rest : Content content text) :
    Content (String.utf8EncodeChar (Char.ofNat (0x10000 + (first - 0xD800) * 1024 + (second - 0xDC00))) ++ content)
      (92 :: 117 :: (digits ++ 92 :: 117 :: (digits' ++ text)))

/-- The four digits of a control character name it again. Two of them are always zero. -/
theorem hexValue?_hexDigit {byte : UInt8} (control : byte < 32) :
    hexValue? (hexDigit (byte >>> 4)) = some (byte.toNat / 16) ∧
      hexValue? (hexDigit (byte &&& 15)) = some (byte.toNat % 16) ∧
      String.utf8EncodeChar (Char.ofNat byte.toNat) = [byte] := by
  have all : ∀ code < 32, hexValue? (hexDigit (UInt8.ofNat code >>> 4)) = some (code / 16) ∧
      hexValue? (hexDigit (UInt8.ofNat code &&& 15)) = some (code % 16) ∧
      String.utf8EncodeChar (Char.ofNat code) = [UInt8.ofNat code] := by decide
  simpa using all byte.toNat (UInt8.lt_iff_toNat_lt.1 control)

/-- What the writer makes of a byte is a text for it. -/
theorem Content.escape (byte : UInt8) {content text : List UInt8} (rest : Content content text) :
    Content (byte :: content) (Json.escape byte ++ text) := by
  unfold Json.escape
  split
  · subst byte
    exact .letter rfl rest
  split
  · subst byte
    exact .letter rfl rest
  split
  next quote backslash above => exact .byte above ⟨quote, backslash⟩ rest
  iterate 5
    split
    · subst byte
      exact .letter rfl rest
  next control _ _ _ _ _ =>
    obtain ⟨high, low, char⟩ := hexValue?_hexDigit (by simpa using control)
    have below : byte.toNat < 32 := UInt8.lt_iff_toNat_lt.1 (by simpa using control)
    have named : code? [48, 48, hexDigit (byte >>> 4), hexDigit (byte &&& 15)] = some byte.toNat := by
      have zero : hexValue? 48 = some 0 := rfl
      simp only [code?, zero, high, low, Option.pure_def, Option.bind_eq_bind, Option.bind_some, Option.some.injEq]
      omega
    have written := Content.code named (by omega) rest
    rwa [char] at written

theorem Content.escaped (content : List UInt8) : Content content (content.flatMap Json.escape) := by
  induction content with
  | nil => exact .nil
  | cons byte rest ih => exact ih.escape byte

private theorem scanFrom_code {digits : List UInt8} {code : Nat} (named : code? digits = some code) (half : Option Nat)
    (bytes text : List UInt8) (found : List Token) :
    scanFrom (.string bytes (.hex 4 0 true half) true) found (digits ++ text) =
      scanFrom (closeCode code half bytes true) found text := by
  match digits with
  | [a, b, c, d] =>
    simp only [code?, Option.pure_def, Option.bind_eq_bind, Option.bind_eq_some_iff, Option.some.injEq] at named
    obtain ⟨_, first, _, second, _, third, _, fourth, rfl⟩ := named
    simp [scanFrom, Mode.step, stringByte, first, second, third, fourth]

theorem Content.scanFrom {content text : List UInt8} (spelled : Content content text) (bytes rest : List UInt8)
    (found : List Token) : scanFrom (.string bytes .none true) found (text ++ rest) =
      scanFrom (.string (content.reverse ++ bytes) .none true) found rest := by
  induction spelled generalizing bytes with
  | nil => rfl
  | @byte byte content text printed plain _ ih =>
    have step : Mode.step (.string bytes .none true) byte = (.string (byte :: bytes) .none true, []) := by
      simp [Mode.step, stringByte, plainByte, plain, UInt8.not_lt.2 printed]
    rw [List.cons_append, Json.scanFrom, step]
    exact (ih (byte :: bytes)).trans (by simp)
  | @letter letter byte content text named _ ih =>
    have other : letter ≠ 117 := by
      rintro rfl
      cases named
    have step : Mode.step (.string bytes .letter true) letter = (.string (byte :: bytes) .none true, []) := by
      simp [Mode.step, stringByte, letterByte, other, named]
    rw [List.cons_append, List.cons_append, Json.scanFrom]
    change Json.scanFrom (.string bytes .letter true) found (letter :: (text ++ rest)) = _
    rw [Json.scanFrom, step]
    exact (ih (byte :: bytes)).trans (by simp)
  | @code digits code content text named single _ ih =>
    have closes : closeCode code none bytes true = .string (pushCode code bytes) .none true := by
      have unpaired : ¬ (0xDC00 ≤ code ∧ code ≤ 0xDFFF) ∧ ¬ (0xD800 ≤ code ∧ code ≤ 0xDBFF) := by omega
      simp only [closeCode, if_neg unpaired.1, if_neg unpaired.2]
    rw [List.cons_append, List.cons_append, List.append_assoc]
    change Json.scanFrom (.string bytes (.hex 4 0 true none) true) found (digits ++ (text ++ rest)) = _
    rw [scanFrom_code named, closes, ih]
    simp [pushCode]
  | @pair digits digits' first second content text named named' high low _ ih =>
    have opens : closeCode first none bytes true = .string bytes (.pairStart first) true := by
      have unpaired : ¬ (0xDC00 ≤ first ∧ first ≤ 0xDFFF) := by omega
      simp only [closeCode, if_neg unpaired, if_pos high]
    have closes := closeCode.eq_1 second bytes true first
    rw [if_pos low] at closes
    simp only [List.cons_append, List.append_assoc]
    change Json.scanFrom (.string bytes (.hex 4 0 true none) true) found
      (digits ++ 92 :: 117 :: (digits' ++ (text ++ rest))) = _
    rw [scanFrom_code named, opens]
    change Json.scanFrom (.string bytes (.hex 4 0 true (some first)) true) found (digits' ++ (text ++ rest)) = _
    rw [scanFrom_code named', closes, ih]
    simp [pushCode]

private theorem fromUTF8?_bytesOf (string : String) : String.fromUTF8? ⟨(bytesOf string).toArray⟩ = some string := by
  rw [bytesOf, Array.toArray_toList]
  exact dif_pos string.isValidUTF8

theorem scanFrom_quoted {string : String} {text : List UInt8} (spelled : Content (bytesOf string) text)
    (rest : List UInt8) (found : List Token) :
    scanFrom .between found (34 :: (text ++ 34 :: rest)) = scanFrom .between (.string (some string) :: found) rest := by
  have closed : stringToken (bytesOf string).reverse true = .string (some string) := by
    rw [stringToken, if_pos rfl, List.reverse_reverse, fromUTF8?_bytesOf]
  change scanFrom (.string [] .none true) found (text ++ 34 :: rest) = _
  rw [spelled.scanFrom, List.append_nil, scanFrom]
  simp [Mode.step, stringByte, plainByte, closed]

/-- A text for a token: the writer's own or, for a string, one with other escapes. -/
inductive Token.Spells : Token → List UInt8 → Prop where
  | own (token : Token) : Spells token token.bytes
  | string {value : String} {text : List UInt8} (content : Content (bytesOf value) text) :
    Spells (.string (some value)) (34 :: (text ++ [34]))

/-- A text for a list of tokens, with blanks wherever they may stand. -/
inductive Spaced : List Token → List UInt8 → Prop where
  | done {blanks : List UInt8} (blank : ∀ byte ∈ blanks, isBlank byte = true) : Spaced [] blanks
  | token {blanks : List UInt8} (blank : ∀ byte ∈ blanks, isBlank byte = true) {token : Token} {word : List UInt8}
    (spelled : token.Spells word) {tokens : List Token} {text : List UInt8} (rest : Spaced tokens text) :
    Spaced (token :: tokens) (blanks ++ (word ++ text))

theorem Spaced.even (blanks : List UInt8) (blank : ∀ byte ∈ blanks, isBlank byte = true) {tokens : List Token}
    {text : List UInt8} (written : (tokens.flatMap fun token => blanks ++ token.bytes) = text) :
    Spaced tokens text := by
  subst written
  induction tokens with
  | nil => exact .done nofun
  | cons token rest ih =>
    rw [List.flatMap_cons, List.append_assoc]
    exact .token blank (.own token) ih

theorem Spaced.compact (tokens : List Token) : Spaced tokens (tokens.flatMap Token.bytes) := .even [] nofun rfl

def Token.endsNumber : Token → Bool
  | .comma | .closeArray | .closeObject => true
  | _ => false

/-- A token that the scanner finds again where these tokens follow: it holds a value if it can, and numbers are
whole and fit a word. -/
def Token.Clear (rest : List Token) : Token → Prop
  | .number value =>
    (∃ n : Nat, n < UInt64.size ∧ value = some (.whole n)) ∧ ∀ next ∈ rest.head?, next.endsNumber = true
  | .string value => value.isSome = true
  | .broken .. | .brokenString .. => False
  | _ => True

def Clear : List Token → Prop
  | [] => True
  | token :: rest => token.Clear rest ∧ Clear rest

theorem scanFrom_blanks {blanks : List UInt8} (blank : ∀ byte ∈ blanks, isBlank byte = true) (text : List UInt8)
    (found : List Token) : scanFrom .between found (blanks ++ text) = scanFrom .between found text := by
  induction blanks with
  | nil => rfl
  | cons byte rest ih =>
    have step : startByte byte = (.between, []) := by simp [startByte, blank byte (by simp)]
    rw [List.cons_append, scanFrom, Mode.step, step]
    exact ih fun other among => blank other (by simp [among])

theorem Spaced.behind {tokens : List Token} {text : List UInt8} (spaced : Spaced tokens text)
    (ends : ∀ next ∈ tokens.head?, next.endsNumber = true) : Behind text := by
  have blank_first {blanks text : List UInt8} (blank : ∀ byte ∈ blanks, isBlank byte = true) (behind : Behind text) :
      Behind (blanks ++ text) := by
    cases blanks with
    | nil => exact behind
    | cons byte rest =>
      intro first head
      cases head
      simp [endsNumber, blank byte (by simp)]
  have end_of_text : Behind [] := by simp [Behind]
  cases spaced with
  | done blank => simpa using blank_first blank end_of_text
  | @token _ blank token _ spelled _ text _ =>
    refine blank_first blank ?_
    have ends := ends token rfl
    cases token <;> cases ends
    all_goals
      cases spelled
      intro first head
      cases head
      decide

theorem Token.Clear.scanFrom {token : Token} {rest : List Token} (clear : token.Clear rest) {word text : List UInt8}
    (spelled : token.Spells word) (behind : Spaced rest text) (found : List Token) :
    scanFrom .between found (word ++ text) = scanFrom .between (token :: found) text := by
  cases spelled with
  | string content =>
    rw [List.cons_append, List.append_assoc]
    exact scanFrom_quoted content text found
  | own =>
    cases token with
    | openObject | closeObject | openArray | closeArray | colon | comma | null => rfl
    | bool value => cases value <;> rfl
    | number value =>
      obtain ⟨⟨n, fits, rfl⟩, ends⟩ := clear
      exact scanFrom_whole fits (behind.behind ends) found
    | string value =>
      obtain ⟨value, rfl⟩ := Option.isSome_iff_exists.1 clear
      rw [Token.bytes, quoted, List.cons_append, List.append_assoc]
      exact scanFrom_quoted (.escaped _) text found
    | broken | brokenString => exact clear.elim

theorem scan_spaced {tokens : List Token} {text : List UInt8} (clear : Clear tokens) (spaced : Spaced tokens text) :
    scan text = tokens := by
  have scanned (found : List Token) : scanFrom .between found text = found.reverse ++ tokens := by
    induction spaced generalizing found with
    | done blank =>
      have passed := scanFrom_blanks blank [] found
      rw [List.append_nil] at passed
      rw [passed]
      rfl
    | token blank spelled behind ih =>
      rw [scanFrom_blanks blank, clear.1.scanFrom spelled behind, ih clear.2]
      simp
  exact scanned []

/-- Values without fractions: whole numbers that fit a word, strings, and so many containers inside each other. -/
inductive Exact : Nat → Json → Prop where
  | null {room : Nat} : Exact room .null
  | bool {room : Nat} (value : Bool) : Exact room (.bool value)
  | number {room n : Nat} (fits : n < UInt64.size) : Exact room (.number (.whole n))
  | string {room : Nat} (value : String) : Exact room (.string value)
  | array {room : Nat} {items : List Json} (exact : ∀ item ∈ items, Exact room item) : Exact (room + 1) (.array items)
  | object {room : Nat} {members : List (String × Json)} (exact : ∀ member ∈ members, Exact room member.2) :
    Exact (room + 1) (.object members)

/-- The tokens of a value are clear in front of others that are, if its last token may stand in front of them. -/
def Cleared (json : Json) : Prop :=
  ∀ rest, Clear rest → (∀ next ∈ rest.head?, next.endsNumber = true) → Clear (json.tokens ++ rest)

private theorem clear_items {items : List Json} (cleared : ∀ item ∈ items, Cleared item) {rest : List Token}
    (clear : Clear rest) : Clear (moreItemTokens items ++ .closeArray :: rest) := by
  induction items with
  | nil => exact ⟨trivial, clear⟩
  | cons item more ih =>
    have behind := ih fun other among => cleared other (by simp [among])
    rw [moreItemTokens_cons, List.cons_append, List.append_assoc]
    refine ⟨trivial, cleared item (by simp) _ behind ?_⟩
    cases more <;> simp [moreItemTokens, Token.endsNumber]

private theorem clear_members {members : List (String × Json)} (cleared : ∀ member ∈ members, Cleared member.2)
    {rest : List Token} (clear : Clear rest) : Clear (moreTokens members ++ .closeObject :: rest) := by
  induction members with
  | nil => exact ⟨trivial, clear⟩
  | cons member more ih =>
    have behind := ih fun other among => cleared other (by simp [among])
    rw [moreTokens_cons, List.cons_append, List.append_assoc]
    refine ⟨trivial, rfl, trivial, cleared member (by simp) _ behind ?_⟩
    cases more <;> simp [moreTokens, Token.endsNumber]

theorem Exact.cleared {room : Nat} {json : Json} (exact : Exact room json) : Cleared json := by
  induction exact with
  | null | bool => exact fun rest clear _ => ⟨trivial, clear⟩
  | number fits => exact fun rest clear ends => ⟨⟨⟨_, fits, rfl⟩, ends⟩, clear⟩
  | string => exact fun rest clear _ => ⟨rfl, clear⟩
  | @array _ items _ cleared =>
    intro rest clear _
    cases items with
    | nil => exact ⟨trivial, trivial, clear⟩
    | cons item more =>
      have spelled := clear_items cleared clear
      rw [moreItemTokens_cons] at spelled
      rw [tokens_array_cons]
      simpa [Clear, Token.Clear] using spelled
  | @object _ members _ cleared =>
    intro rest clear _
    cases members with
    | nil => exact ⟨trivial, trivial, clear⟩
    | cons member more =>
      have spelled := clear_members cleared clear
      rw [moreTokens_cons] at spelled
      rw [tokens_object_cons]
      simpa [Clear, Token.Clear] using spelled

theorem Exact.scan_spaced {room : Nat} {json : Json} (exact : Exact room json) {text : List UInt8}
    (spaced : Spaced json.tokens text) : scan text = json.tokens := by
  have clear := exact.cleared [] trivial nofun
  rw [List.append_nil] at clear
  exact Json.scan_spaced clear spaced

/-- Values as messages are made of them: whole numbers that fit a word, and objects, with so many of them inside
each other. -/
inductive Plain : Nat → Json → Prop where
  | null {room : Nat} : Plain room .null
  | bool {room : Nat} (value : Bool) : Plain room (.bool value)
  | number {room n : Nat} (fits : n < UInt64.size) : Plain room (.number (.whole n))
  | string {room : Nat} (value : String) : Plain room (.string value)
  | object {room : Nat} {members : List (String × Json)} (plain : ∀ member ∈ members, Plain room member.2) :
    Plain (room + 1) (.object members)

theorem Plain.mono {room larger : Nat} {json : Json} (plain : Plain room json) (le : room ≤ larger) :
    Plain larger json := by
  induction plain generalizing larger with
  | null => exact .null
  | bool value => exact .bool value
  | number fits => exact .number fits
  | string value => exact .string value
  | object _ ih =>
    obtain ⟨larger, rfl⟩ := Nat.exists_eq_add_of_le' (Nat.le_trans (Nat.le_add_left 1 _) le)
    exact .object fun member among => ih member among (by omega)

theorem Plain.exact {room : Nat} {json : Json} (plain : Plain room json) : Exact room json := by
  induction plain with
  | null => exact .null
  | bool value => exact .bool value
  | number fits => exact .number fits
  | string value => exact .string value
  | object _ ih => exact .object ih

theorem Plain.scan_bytes {room : Nat} {json : Json} (plain : Plain room json) : scan json.bytes = json.tokens :=
  plain.exact.scan_spaced (.compact json.tokens)

end Synod.Json
