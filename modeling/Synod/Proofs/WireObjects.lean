import Synod.Proofs.JsonRead
import Synod.Wire.Message

/-! How objects are read. A record finds each of its members by its name alone, and an object that names its kind is
read from its tokens as it is from the value. So the order of members does not matter, nor do those that the record
does not have. -/

namespace Synod.Wire

open Json (Token Exact memberTokens moreTokens)

/-- What a record finds under a name: what the one member of this name holds, or what the name stands for where it is
left out. -/
def field? {α : Type} (wire : Wire α) (name : String) (members : List (String × Json)) : Option α :=
  match members.filter fun member => member.1 = name with
  | [] => wire.absent
  | [(_, json)] => wire.ofJson? json
  | _ => none

theorem filter_name_nil {members : List (String × Json)} {name : String}
    (others : ∀ member ∈ members, member.1 ≠ name) : members.filter (fun member => member.1 = name) = [] :=
  List.filter_eq_nil_iff.2 fun member among => by simpa using others member among

/-- Of members with different names each one is the only one of its name. -/
theorem filter_name {members : List (String × Json)} (distinct : (members.map (·.1)).Nodup) {member : String × Json}
    (among : member ∈ members) : members.filter (fun other => other.1 = member.1) = [member] := by
  induction members with
  | nil => cases among
  | cons first rest ih =>
    obtain ⟨fresh, distinct⟩ := List.nodup_cons.1 distinct
    rcases List.mem_cons.1 among with rfl | among
    · have none := filter_name_nil fun other within same => fresh (List.mem_map.2 ⟨other, within, same⟩)
      rw [List.filter_cons_of_pos (by simp), none]
    · have unequal : first.1 ≠ member.1 := fun same => fresh (List.mem_map.2 ⟨member, among, same.symm⟩)
      rw [List.filter_cons_of_neg (by simpa using unequal), ih distinct among]

namespace Members

def names : {α σ : Type} → Members α σ → List String
  | _, _, one name _ => [name]
  | _, _, cons name _ rest => name :: rest.names

private theorem put?_other {α σ : Type} (m : Members α σ) {name : String} (other : name ∉ m.names) (json : Json)
    (slots : σ) : m.put? name json slots = some slots := by
  induction m with
  | one own wire =>
    simp only [names, List.mem_singleton] at other
    simp [put?, other]
  | cons own wire rest ih =>
    simp only [names, List.mem_cons, not_or] at other
    simp [put?, other.1, ih other.2]

def puts? {α σ : Type} (m : Members α σ) (members : List (String × Json)) (slots : σ) : Option σ :=
  members.foldlM (fun slots (name, json) => m.put? name json slots) slots

private theorem puts?_cons {α σ : Type} (m : Members α σ) (member : String × Json) (rest : List (String × Json))
    (slots : σ) : m.puts? (member :: rest) slots = (m.put? member.1 member.2 slots).bind (m.puts? rest) := rfl

private theorem puts?_one {α : Type} (name : String) (wire : Wire α) (members : List (String × Json))
    (slot : Option α) : (one name wire).puts? members slot =
      match slot, members.filter fun member => member.1 = name with
      | slot, [] => some slot
      | none, [(_, json)] => (wire.ofJson? json).map some
      | _, _ => none := by
  induction members generalizing slot with
  | nil => cases slot <;> rfl
  | cons member rest ih =>
    obtain ⟨other, json⟩ := member
    rw [puts?_cons]
    by_cases own : other = name
    · subst other
      rw [List.filter_cons_of_pos (by simp)]
      cases slot with
      | some value => simp [put?]
      | none =>
        simp only [put?, if_true]
        generalize rest.filter (fun member => member.1 = name) = others at ih
        cases read : wire.ofJson? json with
        | none => cases others <;> simp [read]
        | some value => cases others <;> simp [read, ih]
    · rw [List.filter_cons_of_neg (by simpa using own)]
      simp [put?, own, ih]

/-- The first place and the others are filled apart if the others have other names. -/
theorem puts?_apart {α β σ : Type} {name : String} (wire : Wire α) {m : Members β σ} (fresh : name ∉ m.names)
    (members : List (String × Json)) (slot : Option α) (slots : σ) : (cons name wire m).puts? members (slot, slots) =
      ((one name wire).puts? members slot).bind fun slot => (m.puts? members slots).map fun slots => (slot, slots) := by
  induction members generalizing slot slots with
  | nil => rfl
  | cons member rest ih =>
    simp only [puts?_cons]
    by_cases own : member.1 = name
    · have kept : m.put? member.1 member.2 slots = some slots := m.put?_other (own ▸ fresh) member.2 slots
      have both : (cons name wire m).put? member.1 member.2 (slot, slots) =
          ((one name wire).put? member.1 member.2 slot).map fun slot => (slot, slots) := by
        cases slot <;> simp [put?, own, Function.comp_def]
      rw [both, kept]
      cases (one name wire).put? member.1 member.2 slot with
      | none => rfl
      | some after => exact ih after slots
    · have both : (cons name wire m).put? member.1 member.2 (slot, slots) =
          (m.put? member.1 member.2 slots).map fun slots => (slot, slots) := by simp [put?, own]
      have kept : (one name wire).put? member.1 member.2 slot = some slot := by simp [put?, own]
      rw [both, kept]
      cases m.put? member.1 member.2 slots with
      | none => simp
      | some after => exact ih slot after

theorem ofMembers?_one {α : Type} (name : String) (wire : Wire α) (members : List (String × Json)) :
    (one name wire).ofMembers? members = field? wire name members := by
  change ((one name wire).puts? members none).bind _ = _
  rw [puts?_one, field?]
  generalize members.filter (fun member => member.1 = name) = found
  match found with
  | [] => rfl
  | [(_, json)] => exact Option.bind_map.trans (Option.bind_fun_some _)
  | _ :: _ :: _ => rfl

/-- A record finds its members one by one. -/
theorem ofMembers?_cons {α β σ : Type} {name : String} (wire : Wire α) {m : Members β σ} (fresh : name ∉ m.names)
    (members : List (String × Json)) : (cons name wire m).ofMembers? members =
      (field? wire name members).bind fun value => (m.ofMembers? members).map fun record => (value, record) := by
  rw [← ofMembers?_one]
  change ((cons name wire m).puts? members (none, m.empty)).bind _ =
    (((one name wire).puts? members none).bind (one name wire).complete).bind _
  rw [puts?_apart wire fresh]
  change _ = ((((one name wire).puts? members none).bind (one name wire).complete).bind fun value =>
    ((m.puts? members m.empty).bind m.complete).map fun record => (value, record))
  cases (one name wire).puts? members none with
  | none => rfl
  | some slot =>
    cases m.puts? members m.empty with
    | none => simp
    | some slots =>
      simp only [Option.bind_some, Option.map_some, complete]
      cases slot.or wire.absent <;> cases m.complete slots <;> rfl

end Members

/-- What a reader says where the text has no fault: the value and the tokens behind it, or that the shape is another. -/
def answer {τ : Type} (found : Option τ) (rest : List Token) : Except Fault (τ × List Token) :=
  match found with
  | some value => .ok (value, rest)
  | none => .error .mismatched

private theorem readScalar_tokens {α : Type} {pick : Json → Option α} (array : ∀ items, pick (.array items) = none)
    (object : ∀ members, pick (.object members) = none) (json : Json) (rest : List Token) :
    readScalar pick (json.tokens ++ rest) = answer (pick json) rest := by
  have scalar {token : Token} (single : json.tokens = [token]) (value : Json.scalar token = .ok json)
      (opens : token ≠ .openObject ∧ token ≠ .openArray) :
      readScalar pick (json.tokens ++ rest) = answer (pick json) rest := by
    rw [single, List.singleton_append, readScalar, value]
    · cases found : pick json <;> simp [found, answer]
    · exact opens.1
    · exact opens.2
  cases json with
  | null | bool _ | number _ | string _ => exact scalar rfl rfl (by simp)
  | array items =>
    rw [array]
    cases items with
    | nil => rfl
    | cons item more =>
      rw [Json.tokens_array_cons]
      rfl
  | object members =>
    rw [object]
    cases members with
    | nil => rfl
    | cons member more =>
      rw [Json.tokens_object_cons]
      rfl

section

variable {τ : Type} {member : String → τ → List Token → Except Fault (τ × List Token)}

private theorem readObject_comma (name : String) (gathered : τ) (tokens : List Token) (fuel : Nat) :
    readObject member (fuel + 1) false gathered (.comma :: .string (some name) :: tokens) =
      (member name gathered tokens).bind fun (after, rest) => readObject member fuel false after rest := by
  simp only [readObject, Json.memberName, bind, Except.bind]

theorem readObject_step {name : String} {gathered after : τ} {tokens rest : List Token}
    (brought : member name gathered tokens = .ok (after, rest)) (fuel : Nat) :
    readObject member (fuel + 1) false gathered (.comma :: .string (some name) :: tokens) =
      readObject member fuel false after rest := by
  rw [readObject_comma, brought]
  rfl

private theorem length_le_moreTokens (members : List (String × Json)) :
    members.length ≤ (moreTokens members).length := by
  induction members with
  | nil => exact Nat.le_refl 0
  | cons member rest ih =>
    simp only [Json.moreTokens_cons, List.length_append, List.length_cons]
    omega

/-- An object is read as its members are, as if a comma stood before the first of them. -/
theorem readObject_tokens {gathered : τ} {outcome : Except Fault (τ × List Token)} (first : String × Json)
    (others : List (String × Json)) (rest : List Token) (read : ∀ fuel, others.length + 1 < fuel →
      readObject member fuel false gathered (moreTokens (first :: others) ++ .closeObject :: rest) = outcome) :
    ∃ tokens, (Json.object (first :: others)).tokens ++ rest = .openObject :: tokens ∧
      readObject member (tokens.length + 1) true gathered tokens = outcome := by
  refine ⟨memberTokens first ++ (moreTokens others ++ .closeObject :: rest), by simp [Json.tokens_object_cons], ?_⟩
  refine .trans ?_ (read ((memberTokens first ++ (moreTokens others ++ .closeObject :: rest)).length + 1) ?_)
  · rw [Json.moreTokens_cons, List.cons_append, List.append_assoc]
    rfl
  · have enough := length_le_moreTokens others
    simp only [List.length_append, List.length_cons]
    omega

end

namespace Tagged

variable {α : Type} {variants : List (Variant α)} {room larger : Nat}

def kind? (variants : List (Variant α)) (json : Json) : Option (Variant α) :=
  (string? json).bind (Variant.find? variants)

def take? (variants : List (Variant α)) (t : Tagged α) (member : String × Json) : Option (Tagged α) :=
  if member.1 = tagName then
    match t.variant with
    | some _ => none
    | none => (kind? variants member.2).map fun variant => { t with variant := some variant }
  else some { t with members := member :: t.members }

private theorem readMember_tokens {json : Json} (exact : Exact room json) (le : room ≤ larger) (name : String)
    (t : Tagged α) (rest : List Token) :
    readMember variants larger name t (.colon :: (json.tokens ++ rest)) =
      answer (take? variants t (name, json)) rest := by
  by_cases tag : name = tagName
  · cases known : t.variant with
    | some variant => simp [readMember, take?, tag, known, answer]
    | none =>
      have read : readTag variants (json.tokens ++ rest) = answer (kind? variants json) rest :=
        readScalar_tokens (fun _ => rfl) (fun _ => rfl) json rest
      simp only [readMember, take?, tag, known, if_true, Wire.colon, bind, Except.bind, read]
      cases kind? variants json <;> rfl
  · have read := exact.read_tokens le rest
    simp [readMember, take?, tag, Wire.colon, bind, Except.bind, read, pure, Except.pure, answer]

private theorem readObject_members {members : List (String × Json)} (exact : ∀ member ∈ members, Exact room member.2)
    (le : room ≤ larger) (t : Tagged α) (rest : List Token) (fuel : Nat) (enough : members.length < fuel) :
    readObject (readMember variants larger) fuel false t (moreTokens members ++ .closeObject :: rest) =
      answer (members.foldlM (take? variants) t) rest := by
  induction members generalizing t fuel with
  | nil =>
    obtain ⟨fuel, rfl⟩ : ∃ more, fuel = more + 1 := Nat.exists_eq_add_of_le' enough
    rfl
  | cons member more ih =>
    obtain ⟨fuel, rfl⟩ : ∃ more, fuel = more + 1 := Nat.exists_eq_add_of_le' (Nat.zero_lt_of_lt enough)
    have others (after : Tagged α) := ih (fun other among => exact other (by simp [among])) after fuel
      (Nat.lt_of_succ_lt_succ enough)
    rw [Json.moreTokens_cons, List.cons_append, List.append_assoc]
    refine (readObject_comma member.1 t _ fuel).trans ?_
    refine (congrArg (Except.bind · _) (readMember_tokens (exact member (by simp)) le member.1 t _)).trans ?_
    rw [List.foldlM_cons]
    cases take? variants t member with
    | none => rfl
    | some after => exact others after

private theorem foldlM_take? (members : List (String × Json)) (t : Tagged α) :
    members.foldlM (take? variants) t =
      match t.variant, members.filter fun member => member.1 = tagName with
      | known, [] => some ⟨known, (members.filter fun member => member.1 ≠ tagName).reverse ++ t.members⟩
      | none, [(_, json)] => (kind? variants json).map fun variant =>
        ⟨some variant, (members.filter fun member => member.1 ≠ tagName).reverse ++ t.members⟩
      | _, _ => none := by
  induction members generalizing t with
  | nil => cases t with | mk variant members => cases variant <;> rfl
  | cons member more ih =>
    obtain ⟨name, json⟩ := member
    rw [List.foldlM_cons]
    by_cases tag : name = tagName
    · subst name
      rw [List.filter_cons_of_pos (by simp), List.filter_cons_of_neg (by simp)]
      cases known : t.variant with
      | some variant => simp [take?, known]
      | none =>
        generalize more.filter (fun member => member.1 = tagName) = others at ih
        cases kind : kind? variants json with
        | none => cases others <;> simp [take?, known, kind]
        | some variant => cases others <;> simp [take?, known, kind, ih]
    · rw [List.filter_cons_of_neg (by simpa using tag), List.filter_cons_of_pos (by simpa using tag)]
      simp [take?, tag, ih]

private theorem close_eq (t : Tagged α) (rest : List Token) :
    t.close rest = answer (t.variant.bind fun variant => variant.ofMembers? t.members.reverse) rest := by
  rw [close]
  cases t.variant with
  | none => rfl
  | some variant => cases found : variant.ofMembers? t.members.reverse <;> simp [found, answer]

theorem ofMembers?_eq (members : List (String × Json)) :
    ofMembers? variants members = (members.foldlM (take? variants) ⟨none, []⟩).bind fun t =>
      t.variant.bind fun variant => variant.ofMembers? t.members.reverse := by
  rw [foldlM_take?, ofMembers?]
  generalize members.filter (fun member => member.1 = tagName) = tags
  match tags with
  | [] => rfl
  | [(_, json)] =>
    change (kind? variants json).bind _ = ((kind? variants json).map _).bind _
    cases kind? variants json <;> simp
  | _ :: _ :: _ => rfl

/-- An object is read from its tokens as it is from the value. -/
theorem read_object {members : List (String × Json)} (exact : ∀ member ∈ members, Exact room member.2)
    (le : room ≤ larger) (rest : List Token) :
    Tagged.read variants (larger + 1) ((Json.object members).tokens ++ rest) =
      answer (ofMembers? variants members) rest := by
  cases members with
  | nil => rfl
  | cons first others =>
    obtain ⟨tokens, spelled, gathered⟩ := readObject_tokens first others rest
      fun fuel enough => readObject_members exact le ⟨none, []⟩ rest fuel enough
    rw [spelled, Tagged.read, gathered, ofMembers?_eq]
    cases (first :: others).foldlM (take? variants) ⟨none, []⟩ with
    | none => rfl
    | some t => exact t.close_eq rest

end Tagged

end Synod.Wire
