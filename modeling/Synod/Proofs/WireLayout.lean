import Synod.Proofs.FrameRoundTrip

/-! Messages in layouts that the writer would not choose. Other writers may put the members of an object in another
order, leave out those that hold nothing, and add members of their own; the message is read all the same. Its kind
must be told exactly once. -/

namespace Synod.Json

/-- Another layout of a value, with at most so many containers inside each other. An object keeps its members in any
order, those that hold null left out or not, with members of other names among them. -/
inductive Relaid : Nat → Json → Json → Prop where
  | single {room : Nat} {json : Json} (exact : Exact room json) (other : ∀ members, json ≠ .object members) :
    Relaid room json json
  /-- Each member that is kept has its name, its value and the layout of the value. -/
  | object {room : Nat} {members changed : List (String × Json)} (kept : List (String × Json × Json))
    (left added : List (String × Json))
    (values : ∀ entry ∈ kept, Relaid room entry.2.1 entry.2.2)
    (before : members.Perm (kept.map (fun entry => (entry.1, entry.2.1)) ++ left))
    (nulls : ∀ member ∈ left, member.2 = .null)
    (unknown : ∀ member ∈ added, member.1 ∉ members.map (·.1))
    (exact : ∀ member ∈ added, Exact room member.2)
    (after : changed.Perm (kept.map (fun entry => (entry.1, entry.2.2)) ++ added)) :
    Relaid (room + 1) (.object members) (.object changed)

theorem Relaid.exact {room : Nat} {json changed : Json} (relaid : Relaid room json changed) : Exact room changed := by
  induction relaid with
  | single exact => exact exact
  | @object room members changed kept left added values before nulls unknown exact after ih =>
    refine .object fun member among => ?_
    rcases List.mem_append.1 (after.mem_iff.1 among) with among | among
    · obtain ⟨entry, within, rfl⟩ := List.mem_map.1 among
      exact ih entry within
    · exact exact member among

private theorem Relaid.reorder {room : Nat} {members changed : List (String × Json)}
    (values : ∀ member ∈ members, Relaid room member.2 member.2) (order : changed.Perm members) :
    Relaid (room + 1) (.object members) (.object changed) := by
  have before : (members.map fun member => (member.1, member.2, member.2)).map (fun entry => (entry.1, entry.2.1)) ++
      [] = members := by simp [Function.comp_def]
  have after : (members.map fun member => (member.1, member.2, member.2)).map (fun entry => (entry.1, entry.2.2)) ++
      [] = members := by simp [Function.comp_def]
  refine .object (members.map fun member => (member.1, member.2, member.2)) [] [] ?_ (.of_eq before.symm) nofun nofun
    nofun (after.symm ▸ order)
  intro entry among
  obtain ⟨member, within, rfl⟩ := List.mem_map.1 among
  exact values member within

/-- The layout that the writer chooses is one of them. -/
theorem Relaid.refl {room : Nat} {json : Json} (exact : Exact room json) : Relaid room json json := by
  induction exact with
  | null => exact .single .null nofun
  | bool value => exact .single (.bool value) nofun
  | number fits => exact .single (.number fits) nofun
  | string value => exact .single (.string value) nofun
  | array exact => exact .single (.array exact) nofun
  | object _ values => exact .reorder values (.refl _)

theorem Relaid.of_object {room : Nat} {members : List (String × Json)} {json : Json}
    (relaid : Relaid room (.object members) json) : ∃ less changed, room = less + 1 ∧ json = .object changed := by
  cases relaid with
  | single _ other => exact absurd rfl (other members)
  | object => exact ⟨_, _, rfl, rfl⟩

theorem Relaid.null {room : Nat} {json : Json} (relaid : Relaid room json .null) : json = .null := by
  cases relaid
  rfl

/-- A member can be found in another layout: one member has its name, with its value in some layout, or none does and
the member held null. -/
def Finds (room : Nat) (changed : List (String × Json)) (member : String × Json) : Prop :=
  (∃ json, Relaid room member.2 json ∧ changed.filter (fun other => other.1 = member.1) = [(member.1, json)]) ∨
    member.2 = .null ∧ changed.filter (fun other => other.1 = member.1) = []

theorem Relaid.finds {room : Nat} {members changed : List (String × Json)}
    (relaid : Relaid (room + 1) (.object members) (.object changed)) (distinct : (members.map (·.1)).Nodup)
    {member : String × Json} (among : member ∈ members) : Finds room changed member := by
  cases relaid with
  | single _ other => exact absurd rfl (other members)
  | @object _ _ _ kept left added values before nulls unknown _ after =>
    have names : (kept.map (·.1) ++ left.map (·.1)).Nodup := by
      have same := (before.map (·.1)).nodup_iff.1 distinct
      simpa [Function.comp_def] using same
    have strangers := Wire.filter_name_nil fun other within (same : other.1 = member.1) =>
      unknown other within (List.mem_map.2 ⟨member, among, same.symm⟩)
    have search := after.filter fun other => other.1 = member.1
    rw [List.filter_append, strangers, List.append_nil] at search
    rcases List.mem_append.1 (before.mem_iff.1 among) with stays | leaves
    · obtain ⟨entry, within, rfl⟩ := List.mem_map.1 stays
      have own : ((kept.map fun entry => (entry.1, entry.2.2)).map (·.1)).Nodup := by
        simpa [Function.comp_def] using (List.nodup_append.1 names).1
      have laid : (entry.1, entry.2.2) ∈ kept.map fun entry => (entry.1, entry.2.2) :=
        List.mem_map.2 ⟨entry, within, rfl⟩
      rw [Wire.filter_name own laid] at search
      exact .inl ⟨entry.2.2, values entry within, List.perm_singleton.1 search⟩
    · have apart : ∀ other ∈ kept.map fun entry => (entry.1, entry.2.2), other.1 ≠ member.1 := by
        intro other within
        obtain ⟨entry, inside, rfl⟩ := List.mem_map.1 within
        exact (List.nodup_append.1 names).2.2 entry.1 (List.mem_map.2 ⟨entry, inside, rfl⟩) member.1
          (List.mem_map.2 ⟨member, leaves, rfl⟩)
      rw [Wire.filter_name_nil apart] at search
      exact .inr ⟨nulls member leaves, List.perm_nil.1 search⟩

end Synod.Json

namespace Synod.Wire

open Json (Token Exact Relaid Finds Spaced)

/-- A type whose values are read in every layout. Where a value is written as null, leaving it out means the same. -/
structure Lenient (α : Type) [Wire α] : Prop where
  ofJson? : ∀ {value : α} {room : Nat} {json : Json}, Relaid room (toJson value) json → Wire.ofJson? json = some value
  absent : ∀ {value : α}, toJson value = .null → (Wire.absent : Option α) = some value

/-- A type without containers has only one layout. -/
theorem Faithful.lenient {α : Type} [Wire α] (faithful : Faithful α 0) (full : ∀ value : α, toJson value ≠ .null) :
    Lenient α := by
  refine ⟨?_, fun {value} null => absurd null (full value)⟩
  intro value room json relaid
  have plain := faithful.plain value
  have read := faithful.ofJson? value
  generalize toJson value = written at relaid plain read
  cases relaid with
  | single => exact read
  | object => cases plain

theorem Lenient.option {α : Type} [Wire α] (lenient : Lenient α) (full : ∀ value : α, toJson value ≠ .null) :
    Lenient (Option α) := by
  refine ⟨?_, ?_⟩
  · intro value room json relaid
    cases value with
    | none =>
      change Relaid room .null json at relaid
      cases relaid
      rfl
    | some value =>
      rw [toJson_some] at relaid
      have other : json ≠ .null := by
        rintro rfl
        exact full value relaid.null
      rw [option_ofJson? other, lenient.ofJson? relaid, Option.map_some]
  · intro value null
    cases value with
    | none => rfl
    | some value => exact absurd null (full value)

theorem Lenient.field? {α : Type} {wire : Wire α} (lenient : @Lenient α wire) {room : Nat} {name : String} {value : α}
    {changed : List (String × Json)} (finds : Finds room changed (name, wire.toJson value)) :
    field? wire name changed = some value := by
  rw [Wire.field?]
  rcases finds with ⟨json, relaid, only⟩ | ⟨null, gone⟩
  · rw [only]
    exact lenient.ofJson? relaid
  · rw [gone]
    exact lenient.absent null

namespace Members

def Lenient : {α σ : Type} → Members α σ → Prop
  | _, _, one _ wire => @Wire.Lenient _ wire
  | _, _, cons _ wire rest => @Wire.Lenient _ wire ∧ rest.Lenient

theorem Lenient.ofMembers? {α σ : Type} {m : Members α σ} (lenient : m.Lenient) (distinct : m.names.Nodup) (record : α)
    {room : Nat} {changed : List (String × Json)} (finds : ∀ member ∈ m.toMembers record, Finds room changed member) :
    m.ofMembers? changed = some record := by
  induction m with
  | one name wire =>
    rw [ofMembers?_one]
    exact @Wire.Lenient.field? _ wire lenient room name record changed (finds _ (by simp [toMembers]))
  | cons name wire rest ih =>
    obtain ⟨value, record⟩ := record
    obtain ⟨fresh, distinct⟩ := List.nodup_cons.1 distinct
    have own := @Wire.Lenient.field? _ wire lenient.1 room name value changed (finds _ (by simp [toMembers]))
    have others := ih lenient.2 distinct record fun member among => finds member (by simp [toMembers, among])
    rw [ofMembers?_cons wire fresh, own, others]
    rfl

theorem Lenient.wire {α β σ : Type} {m : Members β σ} (lenient : m.Lenient) (distinct : m.names.Nodup) (record : α → β)
    (ofRecord : β → α) (inverse : ∀ value, ofRecord (record value) = value) :
    @Wire.Lenient α (m.wire record ofRecord) := by
  refine @Wire.Lenient.mk α (m.wire record ofRecord) ?_ nofun
  intro value room json relaid
  obtain ⟨room, changed, rfl, rfl⟩ := Relaid.of_object relaid
  have named : ((m.toMembers (record value)).map (·.1)).Nodup := by rwa [m.toMembers_names]
  change (m.ofMembers? changed).map ofRecord = some value
  rw [lenient.ofMembers? distinct _ fun member among => relaid.finds named among, Option.map_some, inverse]

end Members

namespace Tagged

variable {α β σ : Type} {variants : List (Variant α)}

/-- An object that names its kind, in another layout: the name is told once, and the value is the same. -/
theorem relaid_told {name : String} {m : Members β σ} {make : β → α} {content : β}
    (known : Variant.find? variants name = some (.ofRecord name m make)) (lenient : m.Lenient)
    (distinct : (tagName :: m.names).Nodup) {room : Nat} {changed : List (String × Json)}
    (relaid : Relaid (room + 1) (taggedJson name m content) (.object changed)) :
    changed.filter (fun member => member.1 = tagName) = [(tagName, .string name)] ∧
      ofMembers? variants changed = some (make content) := by
  have names : (((tagName, Json.string name) :: m.toMembers content).map (·.1)).Nodup := by
    rwa [List.map_cons, m.toMembers_names]
  have finds (member : String × Json) (among : member ∈ (tagName, .string name) :: m.toMembers content) :=
    relaid.finds names among
  have tag : changed.filter (fun member => member.1 = tagName) = [(tagName, .string name)] := by
    rcases finds (tagName, .string name) (by simp) with ⟨json, same, only⟩ | ⟨null, _⟩
    · cases same
      exact only
    · cases null
  refine ⟨tag, ?_⟩
  have others : ∀ member ∈ m.toMembers content,
      Finds room (changed.filter fun member => member.1 ≠ tagName) member := by
    intro member among
    have untagged := m.toMembers_other (List.nodup_cons.1 distinct).1 content member among
    have same : (changed.filter fun member => member.1 ≠ tagName).filter (fun other => other.1 = member.1) =
        changed.filter fun other => other.1 = member.1 := by
      rw [List.filter_filter]
      refine List.filter_congr fun other _ => ?_
      by_cases own : other.1 = member.1 <;> simp [own, untagged]
    rw [Finds, same]
    exact finds member (by simp [among])
  have record := lenient.ofMembers? (List.nodup_cons.1 distinct).2 content others
  simp only [ofMembers?, tag, string?, Option.bind_some, known]
  change (m.ofMembers? _).map make = _
  rw [record, Option.map_some]

private theorem ofMembers?_untagged (members : List (String × Json)) :
    ofMembers? variants (members.filter fun member => member.1 ≠ tagName) = none := by
  have untagged : ∀ member ∈ members.filter fun member => member.1 ≠ tagName, member.1 ≠ tagName := by
    intro member among
    simpa using (List.mem_filter.1 among).2
  rw [ofMembers?, filter_name_nil untagged]

private theorem ofMembers?_repeated {members more : List (String × Json)} {tag : String × Json} {again : Json}
    (told : members.filter (fun member => member.1 = tagName) = [tag])
    (order : more.Perm ((tagName, again) :: members)) : ofMembers? variants more = none := by
  have twice := (order.filter fun member => member.1 = tagName).length_eq
  rw [List.filter_cons_of_pos (by simp), told] at twice
  rw [ofMembers?]
  generalize more.filter (fun member => member.1 = tagName) = tags at twice
  cases tags with
  | nil => cases twice
  | cons tag others =>
    cases others with
    | nil => cases twice
    | cons => rfl

def renamed (kind : String) (members : List (String × Json)) : List (String × Json) :=
  members.map fun member => if member.1 = tagName then (tagName, .string kind) else member

private theorem ofMembers?_renamed {kind : String} (unknown : Variant.find? variants kind = none)
    (members : List (String × Json)) : ofMembers? variants (renamed kind members) = none := by
  have told : ∀ member ∈ (renamed kind members).filter (fun member => member.1 = tagName), member.2 = .string kind := by
    intro member among
    obtain ⟨within, tag⟩ := List.mem_filter.1 among
    obtain ⟨old, _, rfl⟩ := List.mem_map.1 within
    by_cases own : old.1 = tagName
    · simp [own]
    · simp [own] at tag
  rw [ofMembers?]
  generalize (renamed kind members).filter (fun member => member.1 = tagName) = tags at told
  cases tags with
  | nil => rfl
  | cons tag others =>
    cases others with
    | nil =>
      have told : tag.2 = .string kind := told tag (List.mem_singleton.2 rfl)
      simp [told, string?, unknown]
    | cons => rfl

private theorem decode_object (write : α → Json) {members : List (String × Json)} {text : List UInt8} {room : Nat}
    (exact : ∀ member ∈ members, Exact room member.2) (shallow : room < depthLimit)
    (spaced : Spaced (Json.object members).tokens text) :
    @decode α (wire variants write) text = (ofMembers? variants members).elim (.error .mismatched) .ok := by
  have read : @Wire.read α (wire variants write) depthLimit (Json.object members).tokens =
      answer (ofMembers? variants members) [] := by
    refine .trans ?_ (read_object exact (Nat.le_of_lt_succ shallow) [])
    rw [List.append_nil]
    rfl
  rw [decode, (Exact.object exact).scan_spaced spaced, read]
  cases ofMembers? variants members <;> rfl

end Tagged

/-- An object that stands for a message in another layout is read as the message, whatever blanks its text has. It is
refused if it does not tell its kind, tells it twice or tells one that there is not. -/
structure Tolerates (α : Type) [Wire α] (kinds : List String) (message : α) (members : List (String × Json)) :
    Prop where
  reads : ∀ {text : List UInt8}, Spaced (Json.object members).tokens text → decode α text = .ok message
  untagged : ∀ {text : List UInt8}, Spaced (Json.object (members.filter fun member => member.1 ≠ tagName)).tokens text →
    decode α text = .error .mismatched
  repeated : ∀ {again : Json} {more : List (String × Json)} {text : List UInt8}, Exact (depthLimit - 1) again →
    more.Perm ((tagName, again) :: members) → Spaced (Json.object more).tokens text → decode α text = .error .mismatched
  renamed : ∀ {kind : String} {text : List UInt8}, kind ∉ kinds →
    Spaced (Json.object (Tagged.renamed kind members)).tokens text → decode α text = .error .mismatched

private theorem Variant.find?_unknown {α : Type} {variants : List (Variant α)} {kind : String}
    (unknown : kind ∉ variants.map (·.name)) : find? variants kind = none := by
  refine List.find?_eq_none.2 fun variant among => ?_
  have other : variant.name ≠ kind := fun same => unknown (List.mem_map.2 ⟨variant, among, same⟩)
  simpa using other

theorem Tagged.tolerates {α β σ : Type} {variants : List (Variant α)} {write : α → Json} {kinds : List String}
    {name : String} {m : Members β σ} {make : β → α} {content : β} {json : Json} {message : α}
    {members : List (String × Json)} (all : variants.map (·.name) = kinds)
    (known : Variant.find? variants name = some (.ofRecord name m make)) (lenient : m.Lenient)
    (distinct : (tagName :: m.names).Nodup) (spelled : json = taggedJson name m content) (made : make content = message)
    (relaid : Relaid depthLimit json (.object members)) :
    @Tolerates α (wire variants write) kinds message members := by
  subst all spelled made
  have exact : ∀ member ∈ members, Exact (depthLimit - 1) member.2 := by
    cases relaid.exact with
    | object exact => exact exact
  obtain ⟨told, read⟩ := relaid_told known lenient distinct relaid
  refine @Tolerates.mk α (wire variants write) (variants.map (·.name)) (make content) members ?_ ?_ ?_ ?_
  · intro text spaced
    rw [decode_object write exact (by decide) spaced, read]
    rfl
  · intro text spaced
    rw [decode_object write (fun member among => exact member (List.mem_filter.1 among).1) (by decide) spaced,
      ofMembers?_untagged]
    rfl
  · intro again more text spelled order spaced
    have exact : ∀ member ∈ more, Exact (depthLimit - 1) member.2 := by
      intro member among
      rcases List.mem_cons.1 (order.mem_iff.1 among) with rfl | among
      · exact spelled
      · exact exact member among
    rw [decode_object write exact (by decide) spaced, ofMembers?_repeated told order]
    rfl
  · intro kind text unknown spaced
    have exact : ∀ member ∈ renamed kind members, Exact (depthLimit - 1) member.2 := by
      intro member among
      obtain ⟨old, within, rfl⟩ := List.mem_map.1 among
      by_cases own : old.1 = tagName
      · simpa [own] using Exact.string kind
      · simpa [own] using exact old within
    rw [decode_object write exact (by decide) spaced, ofMembers?_renamed (Variant.find?_unknown unknown)]
    rfl

end Synod.Wire

namespace Synod

open Wire Json

theorem lenient_state : Lenient (Option UInt64) := (faithful_uint64.lenient nofun).option nofun

theorem Ballot.lenient : Lenient Ballot :=
  have members : members.Lenient := ⟨faithful_uint64.lenient nofun, faithful_uint64.lenient nofun⟩
  members.wire (by decide) (fun b : Ballot => (b.round, b.nodeId)) (fun record => ⟨record.1, record.2⟩) fun _ => rfl

section

variable {α : Type} [Wire α] (payload : Lenient α)

include payload

theorem Value.lenient : Lenient (Value α) :=
  have members : (members (α := α)).Lenient := ⟨payload, faithful_uint64.lenient nofun⟩
  members.wire (by decide : ["payload", "state"].Nodup) (fun v : Value α => (v.payload, v.state))
    (fun record => ⟨record.1, record.2⟩) fun _ => rfl

theorem Request.tolerates {request : Request α} {members : List (String × Json)}
    (relaid : Relaid depthLimit (toJson request) (.object members)) :
    Tolerates (Request α) ["prepare", "accept", "propose"] request members := by
  have prepare : prepareMembers.Lenient := Ballot.lenient
  have accept : (acceptMembers (α := α)).Lenient := ⟨Ballot.lenient, Value.lenient payload⟩
  have propose : (proposeMembers (α := α)).Lenient := ⟨lenient_state, payload⟩
  cases request with
  | prepare => exact Tagged.tolerates rfl rfl prepare (by decide) rfl rfl relaid
  | accept => exact Tagged.tolerates rfl rfl accept (by decide : [tagName, "ballot", "value"].Nodup) rfl rfl relaid
  | propose =>
    exact Tagged.tolerates rfl rfl propose (by decide : [tagName, "expected_state", "payload"].Nodup) rfl rfl relaid

theorem Response.tolerates {response : Response α} {members : List (String × Json)}
    (relaid : Relaid depthLimit (toJson response) (.object members)) :
    Tolerates (Response α) ["promise", "accepted", "proposed"] response members := by
  have bool : Lenient Bool := faithful_bool.lenient nofun
  have promise : (Promise.members (α := α)).Lenient :=
    ⟨bool, Ballot.lenient.option nofun, (Value.lenient payload).option nofun⟩
  have accepted : Accepted.members.Lenient := bool
  have proposed : ProposeReply.members.Lenient := ⟨bool, lenient_state⟩
  cases response with
  | promise =>
    exact Tagged.tolerates rfl rfl promise (by decide : [tagName, "ok", "accepted_ballot", "accepted_value"].Nodup)
      rfl rfl relaid
  | accepted => exact Tagged.tolerates rfl rfl accepted (by decide) rfl rfl relaid
  | proposed => exact Tagged.tolerates rfl rfl proposed (by decide) rfl rfl relaid

end

/-- Every message is read in every layout, and its kind must be told once. -/
theorem Wire.any_layout_read :
    (∀ (request : Request String) (members : List (String × Json)),
      Relaid depthLimit (toJson request) (.object members) →
        Tolerates (Request String) ["prepare", "accept", "propose"] request members) ∧
      ∀ (response : Response String) (members : List (String × Json)),
        Relaid depthLimit (toJson response) (.object members) →
          Tolerates (Response String) ["promise", "accepted", "proposed"] response members :=
  have payload : Lenient String := faithful_string.lenient nofun
  ⟨fun _ _ relaid => Request.tolerates payload relaid, fun _ _ relaid => Response.tolerates payload relaid⟩

theorem Wire.any_layout_read_of_two :
    decode (Request String) (bytesOf (" \x7b \"note\" : [ null ] , \"ballot\" : \x7b \"node_id\" : 2 , " ++
        "\"round\" : 1 \x7d , \"type\" : \"prepare\" \x7d")) = .ok (.prepare ⟨1, 2⟩) ∧
      decode (Response String) (bytesOf "\x7b\"ok\":false,\"type\":\"proposed\"\x7d") =
        .ok (.proposed ⟨false, none⟩) := by
  have one : Relaid 125 (.number (.whole (1 : Nat))) (.number (.whole (1 : Nat))) := .refl (.number (by decide))
  have two : Relaid 125 (.number (.whole (2 : Nat))) (.number (.whole (2 : Nat))) := .refl (.number (by decide))
  have members : ∀ member ∈ [("round", Json.number (.whole (1 : Nat))), ("node_id", .number (.whole (2 : Nat)))],
      Relaid 125 member.2 member.2 := by simpa using ⟨one, two⟩
  have ballot : Relaid 126 (toJson (⟨1, 2⟩ : Ballot))
      (.object [("node_id", .number (.whole (2 : Nat))), ("round", .number (.whole (1 : Nat)))]) :=
    .reorder members (.swap _ _ _)
  have note : Exact 126 (.array [.null]) := .array (by simpa using Exact.null)
  have prepare : Relaid depthLimit (toJson (Request.prepare (α := String) ⟨1, 2⟩))
      (.object [("note", .array [.null]),
        ("ballot", .object [("node_id", .number (.whole (2 : Nat))), ("round", .number (.whole (1 : Nat)))]),
        ("type", .string "prepare")]) :=
    .object [("type", .string "prepare", .string "prepare"), ("ballot", toJson (⟨1, 2⟩ : Ballot), _)] []
      [("note", .array [.null])] (by simpa using ⟨.refl (.string _), ballot⟩) (.refl _) (by simp) (by decide)
      (by simpa using note) (List.reverse_perm [_, _, _])
  have proposed : Relaid depthLimit (toJson (Response.proposed (α := String) ⟨false, none⟩))
      (.object [("ok", .bool false), ("type", .string "proposed")]) :=
    .object [("type", .string "proposed", .string "proposed"), ("ok", .bool false, .bool false)] [("state", .null)] []
      (by simpa using ⟨.refl (.string _), .refl (.bool _)⟩) (.refl _) (by simp) (by simp) (by simp) (.swap _ _ _)
  refine ⟨(Wire.any_layout_read.1 _ _ prepare).reads ?_, (Wire.any_layout_read.2 _ _ proposed).reads ?_⟩
  · exact .even [32] (by simp [isBlank]) (by decide +kernel)
  · exact .even [] (by simp) (by decide +kernel)

end Synod
