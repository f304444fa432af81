import Synod.Proofs.WireObjects

/-! What is written of a value is read back as that value. A type is faithful if this holds of all its values, read
from tokens or from a JSON value, and records of faithful members are faithful again. -/

namespace Synod.Wire

open Json (Token Plain memberTokens moreTokens)

/-- A type whose values are plain, with at most so many containers inside each other, and never lost. -/
structure Faithful (α : Type) [Wire α] (room : Nat) : Prop where
  plain : ∀ value : α, Plain room (toJson value)
  ofJson? : ∀ value : α, Wire.ofJson? (toJson value) = some value
  read : ∀ (value : α) {larger : Nat}, room ≤ larger →
    ∀ rest, Wire.read larger ((toJson value).tokens ++ rest) = .ok (value, rest)

theorem Faithful.decode_encode {α : Type} [Wire α] {room : Nat} (faithful : Faithful α room)
    (shallow : room ≤ depthLimit) (value : α) : decode α (encode value) = .ok value := by
  have read := faithful.read value shallow []
  rw [List.append_nil] at read
  rw [decode, encode, (faithful.plain value).scan_bytes, read]

theorem Faithful.mono {α : Type} [Wire α] {room larger : Nat} (faithful : Faithful α room) (le : room ≤ larger) :
    Faithful α larger :=
  ⟨fun value => (faithful.plain value).mono le, faithful.ofJson?,
    fun value _ le' => faithful.read value (Nat.le_trans le le')⟩

theorem faithful_ofScalar {α : Type} {write : α → Json} {pick : Json → Option α}
    (plain : ∀ value, Plain 0 (write value))
    (inverse : ∀ value, pick (write value) = some value) : @Faithful α (ofScalar write pick) 0 := by
  refine @Faithful.mk α (ofScalar write pick) 0 plain inverse ?_
  intro value _ _ rest
  change readScalar pick ((write value).tokens ++ rest) = .ok (value, rest)
  have found := inverse value
  have scalar := plain value
  generalize write value = json at found scalar
  cases scalar <;> simp [readScalar, Json.tokens, Json.pushTokens, Json.scalar, found]

theorem faithful_bool : Faithful Bool 0 := faithful_ofScalar .bool fun _ => rfl

theorem faithful_string : Faithful String 0 := faithful_ofScalar .string fun _ => rfl

private theorem natural?_of_lt {n bound : Nat} (below : n < bound) : natural? bound (.number (.whole n)) = some n := by
  simp [natural?, below]

theorem faithful_uint64 : Faithful UInt64 0 :=
  faithful_ofScalar (fun value => .number value.toNat_lt) fun value => by
    rw [natural?_of_lt value.toNat_lt]
    simp

theorem faithful_uint32 : Faithful UInt32 0 :=
  faithful_ofScalar (fun value => .number (Nat.lt_trans value.toNat_lt (by decide))) fun value => by
    rw [natural?_of_lt value.toNat_lt]
    simp

private theorem tokens_ne_null {room : Nat} {json : Json} (plain : Plain room json) (other : json ≠ .null)
    (rest rest' : List Token) : json.tokens ++ rest ≠ .null :: rest' := by
  cases plain with
  | null => exact absurd rfl other
  | bool | number | string => simp [Json.tokens, Json.pushTokens]
  | @object _ members =>
    cases members with
    | nil => simp [Json.tokens, Json.pushTokens, Json.pushMembers]
    | cons member rest => simp [Json.tokens_object_cons]

section

variable {α : Type} [Wire α]

theorem toJson_some (value : α) : toJson (some value) = toJson value := rfl

theorem option_ofJson? {json : Json} (other : json ≠ .null) :
    ofJson? (α := Option α) json = (ofJson? json).map some := by
  cases json with
  | null => exact absurd rfl other
  | _ => rfl

theorem option_read {room : Nat} {tokens : List Token} (other : ∀ rest, tokens ≠ .null :: rest) :
    read (α := Option α) room tokens = (read room tokens).map fun (value, rest) => (some value, rest) := by
  cases tokens with
  | nil => rfl
  | cons token rest =>
    cases token with
    | null => exact absurd rfl (other rest)
    | _ => rfl

/-- An option is faithful if no value of its type is written as nothing. -/
theorem Faithful.option {room : Nat} (faithful : Faithful α room) (other : ∀ value : α, toJson value ≠ .null) :
    Faithful (Option α) room := by
  refine ⟨?_, ?_, ?_⟩
  · intro value
    cases value with
    | none => exact .null
    | some value => exact faithful.plain value
  · intro value
    cases value with
    | none => rfl
    | some value => rw [toJson_some, option_ofJson? (other value), faithful.ofJson?, Option.map_some]
  · intro value larger le rest
    cases value with
    | none => rfl
    | some value =>
      rw [toJson_some, option_read (tokens_ne_null (faithful.plain value) (other value) rest), faithful.read value le]
      rfl

end

namespace Members

def Faithful (room : Nat) : {α σ : Type} → Members α σ → Prop
  | _, _, one _ wire => @Wire.Faithful _ wire room
  | _, _, cons name wire rest => @Wire.Faithful _ wire room ∧ name ∉ rest.names ∧ rest.Faithful room

def full : {α σ : Type} → Members α σ → α → σ
  | _, _, one .., value => some value
  | _, _, cons _ _ rest, (value, record) => (some value, rest.full record)

private theorem complete_full {α σ : Type} (m : Members α σ) (record : α) :
    m.complete (m.full record) = some record := by
  induction m with
  | one => rfl
  | cons name wire rest ih =>
    obtain ⟨value, record⟩ := record
    simp [complete, full, ih]

theorem toMembers_names {α σ : Type} (m : Members α σ) (record : α) : (m.toMembers record).map (·.1) = m.names := by
  induction m with
  | one => rfl
  | cons name wire rest ih => exact congrArg (name :: ·) (ih record.2)

theorem toMembers_other {α σ : Type} (m : Members α σ) {name : String} (other : name ∉ m.names) (record : α) :
    ∀ member ∈ m.toMembers record, member.1 ≠ name := by
  intro member among same
  have named : member.1 ∈ (m.toMembers record).map (·.1) := List.mem_map.2 ⟨member, among, rfl⟩
  rw [m.toMembers_names, same] at named
  exact other named

theorem Faithful.plain {α σ : Type} {m : Members α σ} {room : Nat} (faithful : m.Faithful room) (record : α) :
    ∀ member ∈ m.toMembers record, Plain room member.2 := by
  induction m with
  | one name wire =>
    intro member among
    rw [List.mem_singleton.1 among]
    exact @Wire.Faithful.plain _ wire room faithful record
  | cons name wire rest ih =>
    obtain ⟨value, record⟩ := record
    intro member among
    rcases List.mem_cons.1 among with rfl | among
    · exact @Wire.Faithful.plain _ wire room faithful.1 value
    · exact ih faithful.2.2 record member among

private theorem Faithful.nodup {α σ : Type} {m : Members α σ} {room : Nat} (faithful : m.Faithful room) :
    m.names.Nodup := by
  induction m with
  | one name wire => simp [names]
  | cons name wire rest ih => exact List.nodup_cons.2 ⟨faithful.2.1, ih faithful.2.2⟩

private theorem Faithful.ofMembers?_found {α σ : Type} {m : Members α σ} {room : Nat} (faithful : m.Faithful room)
    (record : α) {members : List (String × Json)}
    (found : ∀ member ∈ m.toMembers record, members.filter (fun other => other.1 = member.1) = [member]) :
    m.ofMembers? members = some record := by
  induction m with
  | one name wire =>
    rw [ofMembers?_one, field?, found (name, wire.toJson record) (by simp [toMembers])]
    exact @Wire.Faithful.ofJson? _ wire room faithful record
  | cons name wire rest ih =>
    obtain ⟨value, record⟩ := record
    obtain ⟨first, fresh, others⟩ := faithful
    have own : field? wire name members = some value := by
      rw [field?, found (name, wire.toJson value) (by simp [toMembers])]
      exact @Wire.Faithful.ofJson? _ wire room first value
    rw [ofMembers?_cons wire fresh, own, ih others record fun member among => found member (by simp [toMembers, among])]
    rfl

theorem Faithful.ofMembers? {α σ : Type} {m : Members α σ} {room : Nat} (faithful : m.Faithful room) (record : α) :
    m.ofMembers? (m.toMembers record) = some record := by
  have distinct : ((m.toMembers record).map (·.1)).Nodup := m.toMembers_names record ▸ faithful.nodup
  exact faithful.ofMembers?_found record fun member among => filter_name distinct among

end Members

namespace Members

private theorem Faithful.readMember_own {α β σ : Type} {name : String} {wire : Wire α} {m : Members β σ}
    {room larger : Nat}
    (faithful : @Wire.Faithful _ wire room) (le : room ≤ larger) (value : α) (slots : σ) (rest : List Token) :
    (cons name wire m).readMember larger name (none, slots) (.colon :: ((wire.toJson value).tokens ++ rest)) =
      .ok ((some value, slots), rest) := by
  have read := @Wire.Faithful.read _ wire room faithful value larger le rest
  simp [readMember, colon, bind, Except.bind, read, pure, Except.pure]

theorem Faithful.readObject {α σ τ : Type} {m : Members α σ} {room larger : Nat} (faithful : m.Faithful room)
    (le : room ≤ larger) (member : String → τ → List Token → Except Fault (τ × List Token)) (place : σ → τ)
    (agrees : ∀ name ∈ m.names, ∀ slots tokens, member name (place slots) tokens =
      (m.readMember larger name slots tokens).map fun (slots, rest) => (place slots, rest))
    (record : α) (rest : List Token) (fuel : Nat) (enough : (m.toMembers record).length < fuel) :
    Wire.readObject member fuel false (place m.empty)
      (moreTokens (m.toMembers record) ++ .closeObject :: rest) = .ok (place (m.full record), rest) := by
  induction m generalizing τ fuel with
  | one name wire =>
    obtain ⟨fuel, rfl⟩ : ∃ more, fuel = more + 2 := Nat.exists_eq_add_of_le' enough
    have read := @Wire.Faithful.read _ wire room faithful record larger le (.closeObject :: rest)
    have own :
        (one name wire).readMember larger name none (.colon :: ((wire.toJson record).tokens ++ .closeObject :: rest)) =
          .ok (some record, .closeObject :: rest) := by
      simp [readMember, colon, bind, Except.bind, read, pure, Except.pure]
    have brought := agrees name (by simp [names]) none (.colon :: ((wire.toJson record).tokens ++ .closeObject :: rest))
    rw [own] at brought
    rw [toMembers, Json.moreTokens_cons, moreTokens, List.flatMap_nil, List.append_nil, List.cons_append]
    exact readObject_step brought (fuel + 1)
  | @cons β _ _ name wire m ih =>
    obtain ⟨value, record⟩ := record
    obtain ⟨first, different, others⟩ := faithful
    obtain ⟨fuel, rfl⟩ : ∃ more, fuel = more + 1 := Nat.exists_eq_add_of_le' (Nat.zero_lt_of_lt enough)
    have brought := agrees name (by simp [names]) (none, m.empty)
      (.colon :: ((wire.toJson value).tokens ++ (moreTokens (m.toMembers record) ++ .closeObject :: rest)))
    rw [Faithful.readMember_own first le] at brought
    have agree : ∀ other ∈ m.names, ∀ slots tokens, member other (place (some value, slots)) tokens =
        (m.readMember larger other slots tokens).map fun (slots, rest) => (place (some value, slots), rest) := by
      intro other among slots tokens
      have unequal : ¬ other = name := fun same => different (same ▸ among)
      rw [agrees other (by simp [names, among])]
      simp only [readMember, if_neg unequal]
      cases m.readMember larger other slots tokens <;> rfl
    have done := ih others member (fun slots => place (some value, slots)) agree record fuel
      (Nat.lt_of_succ_lt_succ enough)
    rw [toMembers, Json.moreTokens_cons, List.cons_append, List.append_assoc]
    exact (readObject_step brought fuel).trans done

theorem Faithful.read {α σ : Type} {m : Members α σ} {room larger : Nat} (faithful : m.Faithful room)
    (le : room ≤ larger) (record : α) (rest : List Token) :
    m.read (larger + 1) ((Json.object (m.toMembers record)).tokens ++ rest) = .ok (record, rest) := by
  have same (name : String) (_ : name ∈ m.names) (slots : σ) (tokens : List Token) :
      m.readMember larger name slots tokens =
        (m.readMember larger name slots tokens).map fun (slots, rest) => (slots, rest) := by
    cases m.readMember larger name slots tokens <;> rfl
  have read := faithful.readObject le (m.readMember larger) (fun slots => slots) same record rest
  obtain ⟨first, others, members⟩ : ∃ first others, m.toMembers record = first :: others := by
    cases m <;> exact ⟨_, _, rfl⟩
  rw [members] at read
  obtain ⟨tokens, spelled, gathered⟩ := readObject_tokens first others rest read
  rw [members, spelled]
  simp only [Members.read, gathered, bind, Except.bind, close, complete_full]

theorem Faithful.wire {α β σ : Type} {m : Members β σ} {room : Nat} (faithful : m.Faithful room) (record : α → β)
    (ofRecord : β → α) (inverse : ∀ value, ofRecord (record value) = value) :
    @Wire.Faithful α (m.wire record ofRecord) (room + 1) := by
  refine @Wire.Faithful.mk α (m.wire record ofRecord) (room + 1) ?_ ?_ ?_
  · intro value
    exact .object (faithful.plain (record value))
  · intro value
    change (m.ofMembers? (m.toMembers (record value))).map ofRecord = some value
    rw [faithful.ofMembers?, Option.map_some, inverse]
  · intro value larger le rest
    obtain ⟨larger, rfl⟩ := Nat.exists_eq_add_of_le' (Nat.le_trans (Nat.le_add_left 1 room) le)
    change (m.read (larger + 1) ((Json.object (m.toMembers (record value))).tokens ++ rest)).map _ = .ok (value, rest)
    rw [faithful.read (Nat.le_of_succ_le_succ le)]
    change Except.ok (ofRecord (record value), rest) = _
    rw [inverse]

end Members

namespace Tagged

variable {α β σ : Type} {variants : List (Variant α)} {variant : Variant α} {room larger : Nat}

private theorem ofRecord_ofMembers? {name : String} {m : Members β σ} {make : β → α} (faithful : m.Faithful room)
    (content : β) : (Variant.ofRecord name m make).ofMembers? (m.toMembers content) = some (make content) := by
  change (m.ofMembers? (m.toMembers content)).map make = _
  rw [faithful.ofMembers?, Option.map_some]

structure Told (variants : List (Variant α)) (room : Nat) (members : List (String × Json)) (value : α) : Prop where
  plain : ∀ member ∈ members, Plain room member.2
  ofMembers? : Tagged.ofMembers? variants members = some value

/-- A kind is told by its name if its members are faithful and none of them has the name of the member that names
the kind. -/
theorem told {name : String} {m : Members β σ} {make : β → α} {content : β} {json : Json} {value : α}
    (known : Variant.find? variants name = some (.ofRecord name m make)) (faithful : m.Faithful room)
    (free : tagName ∉ m.names) (spelled : json = taggedJson name m content) (made : make content = value) :
    ∃ members, json = .object members ∧ Told variants room members value := by
  subst spelled made
  have untagged := m.toMembers_other free content
  refine ⟨_, rfl, ?_, ?_⟩
  · intro member among
    rcases List.mem_cons.1 among with rfl | among
    · exact .string name
    · exact faithful.plain content member among
  · have others := filter_name_nil untagged
    have kept : (m.toMembers content).filter (fun member => !decide (member.1 = tagName)) = m.toMembers content :=
      List.filter_eq_self.2 fun member among => by simpa using untagged member among
    simp [Tagged.ofMembers?, others, kept, string?, known, ofRecord_ofMembers? faithful]

theorem faithful {write : α → Json}
    (told : ∀ value, ∃ members, write value = .object members ∧ Told variants room members value) :
    @Wire.Faithful α (Tagged.wire variants write) (room + 1) := by
  refine @Wire.Faithful.mk α (Tagged.wire variants write) (room + 1) ?_ ?_ ?_
  · intro value
    obtain ⟨members, spelled, told⟩ := told value
    change Plain (room + 1) (write value)
    rw [spelled]
    exact .object told.plain
  · intro value
    obtain ⟨members, spelled, told⟩ := told value
    change Tagged.ofJson? variants (write value) = some value
    rw [spelled]
    exact told.ofMembers?
  · intro value larger le rest
    obtain ⟨members, spelled, told⟩ := told value
    obtain ⟨larger, rfl⟩ := Nat.exists_eq_add_of_le' (Nat.le_trans (Nat.le_add_left 1 room) le)
    change Tagged.read variants (larger + 1) ((write value).tokens ++ rest) = .ok (value, rest)
    rw [spelled, read_object (fun member among => (told.plain member among).exact) (Nat.le_of_succ_le_succ le),
      told.ofMembers?]
    rfl

end Tagged

end Synod.Wire
