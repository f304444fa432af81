import Mathlib.Data.List.Nodup
import Synod.Config
import Synod.Proofs.YamlIntegers

/-! Which documents describe a cluster. `Describes` says what a document has to hold for a description, and `Refuses`
what is wrong with a field, both in terms of what the document holds and not of the order in which it is looked at.
A text is taken exactly if its first document describes a cluster, and otherwise the first field that is wrong gives
the error. -/

namespace Synod

namespace Yaml.Node

/-- A mapping has this value under this name. Of several values under one name the last one counts. -/
def Holds (document : Node) (name : String) (value : Node) : Prop :=
  ∃ before after, document = .mapping (before ++ (.string name, value) :: after) ∧
    ∀ entry ∈ after, entry.1 ≠ .string name

variable {document value : Node} {name : String}

theorem Holds.get_eq (held : document.Holds name value) : document.get name = value := by
  obtain ⟨before, after, rfl, last⟩ := held
  simp only [get, List.reverse_append, List.reverse_cons, List.append_assoc, List.find?_append]
  rw [List.find?_eq_none.2]
  · simp
  · rintro ⟨key, value⟩ member
    have other := last _ (List.mem_reverse.1 member)
    cases key with
    | string text => simpa using other
    | _ => simp

private theorem get_found (document : Node) (name : String) :
    document.Holds name (document.get name) ∨ document.get name = .bad ∧ ∀ value, ¬ document.Holds name value := by
  cases document with
  | mapping entries =>
    simp only [get]
    cases found : entries.reverse.find? _ with
    | none =>
      refine .inr ⟨rfl, ?_⟩
      rintro value ⟨before, after, same, _⟩
      cases same
      exact List.find?_eq_none.1 found (string name, value) (by simp) (by simp)
    | some entry =>
      obtain ⟨named, after, before, reversed, last⟩ := List.find?_eq_some_iff_append.1 found
      obtain ⟨key, value⟩ := entry
      obtain rfl : key = string name := by
        cases key with
        | string text => simpa using named
        | _ => simp at named
      refine .inl ⟨before.reverse, after.reverse, ?_, ?_⟩
      · rw [← List.reverse_reverse entries, reversed]
        simp
      · intro later member same
        have unnamed := last later (List.mem_reverse.1 member)
        obtain ⟨key, value⟩ := later
        subst same
        simp at unnamed
  | _ => exact .inr ⟨rfl, fun _ ⟨_, _, same, _⟩ => by cases same⟩

private theorem holds_of_get (found : document.get name = value) (present : value ≠ .bad) :
    document.Holds name value := by
  subst found
  rcases document.get_found name with held | ⟨bad, _⟩
  · exact held
  · exact absurd bad present

theorem Holds.fits (held : document.Holds name value) (fits : document.Fits) : value.Fits := by
  obtain ⟨before, after, rfl, _⟩ := held
  cases fits with
  | mapping _ values => exact values (.string name, value) (by simp)

end Yaml.Node

namespace Config

/-- Nothing counts as written for a field that is not there, or under which a bad value stands. -/
def Absent (document : Yaml.Node) (field : Field) : Prop := ∀ value, document.Holds field.key value → value = .bad

/-- What a document has to hold for a description to be taken from it. -/
structure Describes (document : Yaml.Node) (c : Config) : Prop where
  nodeId : document.Holds Field.nodeId.key (.integer c.nodeId.toNat)
  listen : document.Holds Field.listen.key (.string c.listen)
  acceptors : document.Holds Field.acceptors.key (.sequence (c.acceptors.map .string))
  nonempty : c.acceptors ≠ []
  distinct : c.acceptors.Nodup
  requestTimeout : Absent document .requestTimeout ∧ c.requestTimeout = defaultTimeout ∨
    document.Holds Field.requestTimeout.key (.integer c.requestTimeout) ∧ 0 < c.requestTimeout
  logLevel : Absent document .logLevel ∧ c.logLevel = defaultLogLevel ∨
    document.Holds Field.logLevel.key (.string c.logLevel)

structure Valid (document : Yaml.Node) : Prop where
  nodeId : ∃ value : Int, document.Holds Field.nodeId.key (.integer value) ∧ 0 ≤ value
  listen : ∃ address, document.Holds Field.listen.key (.string address)
  acceptors : ∃ listed : List String, document.Holds Field.acceptors.key (.sequence (listed.map .string)) ∧
    listed ≠ [] ∧ listed.Nodup
  requestTimeout : Absent document .requestTimeout ∨
    ∃ value : Int, document.Holds Field.requestTimeout.key (.integer value) ∧ 0 < value
  logLevel : Absent document .logLevel ∨ ∃ level, document.Holds Field.logLevel.key (.string level)

/-- What can be wrong with each field, and the error for it. -/
inductive Refuses (document : Yaml.Node) : Field → ConfigError → Prop where
  | noNodeId (absent : Absent document .nodeId) : Refuses document .nodeId (.missing .nodeId)
  | badNodeId {value : Yaml.Node} (held : document.Holds Field.nodeId.key value) (present : value ≠ .bad)
      (other : ∀ number : Int, 0 ≤ number → value ≠ .integer number) :
      Refuses document .nodeId (.invalid .nodeId .negative)
  | noListen (other : ∀ address, ¬ document.Holds Field.listen.key (.string address)) :
      Refuses document .listen (.missing .listen)
  | noSequence (other : ∀ entries, ¬ document.Holds Field.acceptors.key (.sequence entries)) :
      Refuses document .acceptors (.missing .acceptors)
  | noEntries (held : document.Holds Field.acceptors.key (.sequence [])) :
      Refuses document .acceptors (.invalid .acceptors .noAcceptors)
  /-- The first entry that is no string, with no repetition before it. -/
  | entryNotText {listed : List String} {entry : Yaml.Node} {rest : List Yaml.Node}
      (held : document.Holds Field.acceptors.key (.sequence (listed.map .string ++ entry :: rest)))
      (distinct : listed.Nodup) (other : ∀ address, entry ≠ .string address) :
      Refuses document .acceptors (.invalid .acceptors .entryNotText)
  /-- The first entry that repeats another one, with nothing but strings before it. -/
  | repeated {listed : List String} {address : String} {rest : List Yaml.Node}
      (held : document.Holds Field.acceptors.key (.sequence (listed.map .string ++ .string address :: rest)))
      (distinct : listed.Nodup) (before : address ∈ listed) :
      Refuses document .acceptors (.invalid .acceptors (.repeated address))
  | badTimeout {value : Yaml.Node} (held : document.Holds Field.requestTimeout.key value) (present : value ≠ .bad)
      (other : ∀ number : Int, 0 < number → value ≠ .integer number) :
      Refuses document .requestTimeout (.invalid .requestTimeout .notPositive)
  | badLogLevel {value : Yaml.Node} (held : document.Holds Field.logLevel.key value) (present : value ≠ .bad)
      (other : ∀ level, value ≠ .string level) : Refuses document .logLevel (.invalid .logLevel .notText)

def Field.order : List Field := [.nodeId, .listen, .acceptors, .requestTimeout, .logLevel]

def FirstRefusal (document : Yaml.Node) (fields : List Field) (error : ConfigError) : Prop :=
  ∃ before field after, fields = before ++ field :: after ∧
    (∀ earlier ∈ before, ∀ other, ¬ Refuses document earlier other) ∧ Refuses document field error

section

variable {document : Yaml.Node} {error : ConfigError}

private theorem absent_iff {field : Field} : Absent document field ↔ document.get field.key = .bad := by
  constructor
  · intro absent
    rcases document.get_found field.key with held | ⟨bad, _⟩
    · exact absent _ held
    · exact bad
  · intro bad value held
    rw [← held.get_eq, bad]

theorem nodeIdOf_ok (fits : document.Fits) {id : UInt64} :
    nodeIdOf document = .ok id ↔ document.Holds Field.nodeId.key (.integer id.toNat) := by
  constructor
  · intro read
    unfold nodeIdOf at read
    split at read
    · cases read
    next value found =>
      have held := Yaml.Node.holds_of_get found nofun
      split at read
      next positive =>
        cases read
        cases held.fits fits with
        | integer range =>
          have same : ((value.toNat.toUInt64.toNat : Nat) : Int) = value := by
            rw [Nat.toUInt64_eq, UInt64.toNat_ofNat']
            omega
          rwa [same]
      · cases read
    · cases read
  · intro held
    simp [nodeIdOf, held.get_eq]

private theorem nodeIdOf_error : nodeIdOf document = .error error ↔ Refuses document .nodeId error := by
  constructor
  · intro read
    unfold nodeIdOf at read
    split at read
    next bad =>
      cases read
      exact .noNodeId (absent_iff.2 bad)
    next value found =>
      split at read
      · cases read
      next negative =>
        cases read
        refine .badNodeId (Yaml.Node.holds_of_get found nofun) nofun ?_
        rintro number positive same
        cases same
        exact negative positive
    next present other =>
      cases read
      refine .badNodeId (Yaml.Node.holds_of_get rfl present) present ?_
      intro number _ same
      exact other number same
  · intro refused
    unfold nodeIdOf
    cases refused with
    | noNodeId absent => rw [absent_iff.1 absent]
    | badNodeId held present other =>
      rw [held.get_eq]
      split
      · exact absurd rfl present
      · next number => exact if_neg fun positive => other number positive rfl
      · rfl

theorem listenOf_ok {address : String} :
    listenOf document = .ok address ↔ document.Holds Field.listen.key (.string address) := by
  constructor
  · intro read
    unfold listenOf at read
    split at read
    next found =>
      cases read
      exact Yaml.Node.holds_of_get found nofun
    · cases read
  · intro held
    simp [listenOf, held.get_eq]

private theorem listenOf_error : listenOf document = .error error ↔ Refuses document .listen error := by
  constructor
  · intro read
    unfold listenOf at read
    split at read
    · cases read
    next other =>
      cases read
      exact .noListen fun address held => other address held.get_eq
  · intro refused
    unfold listenOf
    cases refused with
    | noListen other =>
      split
      next address found => exact absurd (Yaml.Node.holds_of_get found nofun) (other address)
      · rfl

/-- What may stand behind an address that was not seen before. -/
theorem fresh_cons {seen listed : List String} {address : String} :
    (address :: listed).Nodup ∧ (∀ other ∈ address :: listed, other ∉ seen) ↔
      address ∉ seen ∧ listed.Nodup ∧ ∀ other ∈ listed, other ∉ address :: seen := by
  rw [List.nodup_cons, List.forall_mem_cons]
  simp only [List.mem_cons, not_or]
  constructor
  · rintro ⟨⟨other, distinct⟩, unseen, fresh⟩
    exact ⟨unseen, distinct, fun later member => ⟨fun same => other (same ▸ member), fresh later member⟩⟩
  · rintro ⟨unseen, distinct, fresh⟩
    exact ⟨⟨fun again => (fresh address again).1 rfl, distinct⟩, unseen, fun later member => (fresh later member).2⟩

private theorem addresses_cons {seen : List String} {address : String} (unseen : address ∉ seen)
    (rest : List Yaml.Node) :
    addresses seen (.string address :: rest) = (addresses (address :: seen) rest).map (address :: ·) := by
  rw [addresses, if_neg unseen]

theorem addresses_ok {seen listed : List String} {entries : List Yaml.Node} :
    addresses seen entries = .ok listed ↔
      entries = listed.map .string ∧ listed.Nodup ∧ ∀ address ∈ listed, address ∉ seen := by
  constructor
  · intro read
    induction entries generalizing seen listed with
    | nil =>
      cases read
      exact ⟨rfl, .nil, nofun⟩
    | cons entry rest ih =>
      cases entry with
      | string address =>
        by_cases again : address ∈ seen
        · rw [addresses, if_pos again] at read
          cases read
        · rw [addresses_cons again] at read
          cases more : addresses (address :: seen) rest with
          | error error =>
            rw [more] at read
            cases read
          | ok listed =>
            rw [more] at read
            cases read
            obtain ⟨rfl, new⟩ := ih more
            exact ⟨rfl, fresh_cons.2 ⟨again, new⟩⟩
      | _ => cases read
  · rintro ⟨rfl, new⟩
    induction listed generalizing seen with
    | nil => rfl
    | cons address rest ih =>
      obtain ⟨unseen, new⟩ := fresh_cons.1 new
      rw [List.map_cons, addresses_cons unseen, ih new]
      rfl

/-- An entry behind these addresses that cannot be one more, and the error for it. -/
def Stops (before : List String) (entry : Yaml.Node) (error : ConfigError) : Prop :=
  (∀ address, entry ≠ .string address) ∧ error = .invalid .acceptors .entryNotText ∨
    ∃ address, entry = .string address ∧ address ∈ before ∧ error = .invalid .acceptors (.repeated address)

private theorem addresses_error {seen : List String} {entries : List Yaml.Node} :
    addresses seen entries = .error error ↔ ∃ (listed : List String) (entry : Yaml.Node) (rest : List Yaml.Node),
      entries = listed.map .string ++ entry :: rest ∧
      (listed.Nodup ∧ ∀ address ∈ listed, address ∉ seen) ∧ Stops (listed.reverse ++ seen) entry error := by
  constructor
  · intro read
    induction entries generalizing seen with
    | nil => cases read
    | cons entry rest ih =>
      by_cases text : ∃ address, entry = .string address
      · obtain ⟨address, rfl⟩ := text
        by_cases again : address ∈ seen
        · rw [addresses, if_pos again] at read
          cases read
          exact ⟨[], _, rest, rfl, ⟨.nil, by simp⟩, .inr ⟨address, rfl, again, rfl⟩⟩
        · rw [addresses_cons again] at read
          cases stopped : addresses (address :: seen) rest with
          | ok listed =>
            rw [stopped] at read
            cases read
          | error error' =>
            rw [stopped] at read
            cases read
            obtain ⟨listed, entry, rest', rfl, new, stops⟩ := ih stopped
            refine ⟨address :: listed, entry, rest', rfl, fresh_cons.2 ⟨again, new⟩, ?_⟩
            rwa [List.reverse_cons, List.append_assoc]
      · have other (address : String) (same : entry = .string address) : False := text ⟨address, same⟩
        rw [addresses] at read
        · cases read
          exact ⟨[], entry, rest, rfl, ⟨.nil, by simp⟩, .inl ⟨other, rfl⟩⟩
        · exact other
  · rintro ⟨listed, entry, rest, rfl, new, stops⟩
    induction listed generalizing seen with
    | nil =>
      rcases stops with ⟨other, rfl⟩ | ⟨address, rfl, again, rfl⟩
      · change addresses seen (entry :: rest) = _
        rw [addresses]
        exact other
      · exact if_pos again
    | cons address listed ih =>
      obtain ⟨unseen, new⟩ := fresh_cons.1 new
      rw [List.reverse_cons, List.append_assoc] at stops
      rw [List.map_cons, List.cons_append, addresses_cons unseen, ih new stops]
      rfl

theorem acceptorsOf_ok {listed : List String} :
    acceptorsOf document = .ok listed ↔
      document.Holds Field.acceptors.key (.sequence (listed.map .string)) ∧ listed ≠ [] ∧ listed.Nodup := by
  constructor
  · intro read
    unfold acceptorsOf at read
    split at read
    · cases read
    next entries several found =>
      obtain ⟨rfl, distinct, _⟩ := addresses_ok.1 read
      refine ⟨Yaml.Node.holds_of_get found nofun, ?_, distinct⟩
      rintro rfl
      exact several rfl
    · cases read
  · rintro ⟨held, several, distinct⟩
    unfold acceptorsOf
    rw [held.get_eq]
    split
    next none => exact absurd (List.map_eq_nil_iff.1 (Yaml.Node.sequence.inj none)) several
    next entries _ same =>
      cases same
      exact addresses_ok.2 ⟨rfl, distinct, fun _ _ => List.not_mem_nil⟩
    next other => exact absurd rfl (other _)

private theorem acceptorsOf_error : acceptorsOf document = .error error ↔ Refuses document .acceptors error := by
  constructor
  · intro read
    unfold acceptorsOf at read
    split at read
    next found =>
      cases read
      exact .noEntries (Yaml.Node.holds_of_get found nofun)
    next entries several found =>
      obtain ⟨listed, entry, rest, rfl, ⟨distinct, _⟩, stops⟩ := addresses_error.1 read
      have held := Yaml.Node.holds_of_get found nofun
      rw [List.append_nil] at stops
      rcases stops with ⟨other, rfl⟩ | ⟨address, rfl, again, rfl⟩
      · exact .entryNotText held distinct other
      · exact .repeated held distinct (List.mem_reverse.1 again)
    next other =>
      cases read
      exact .noSequence fun entries held => other entries held.get_eq
  · intro refused
    have stopped {listed : List String} {entry : Yaml.Node} {rest : List Yaml.Node}
        (held : document.Holds Field.acceptors.key (.sequence (listed.map .string ++ entry :: rest)))
        (distinct : listed.Nodup) (stops : Stops (listed.reverse ++ []) entry error) :
        acceptorsOf document = .error error := by
      unfold acceptorsOf
      rw [held.get_eq]
      split
      next none => exact absurd (Yaml.Node.sequence.inj none) (List.append_ne_nil_of_right_ne_nil _ nofun)
      next entries _ same =>
        cases same
        exact addresses_error.2 ⟨listed, entry, rest, rfl, ⟨distinct, fun _ _ => List.not_mem_nil⟩, stops⟩
      next other => exact absurd rfl (other _)
    cases refused with
    | noSequence other =>
      unfold acceptorsOf
      split
      next found => exact absurd (Yaml.Node.holds_of_get found nofun) (other _)
      next found => exact absurd (Yaml.Node.holds_of_get found nofun) (other _)
      · rfl
    | noEntries held => simp [acceptorsOf, held.get_eq]
    | entryNotText held distinct other => exact stopped held distinct (.inl ⟨other, rfl⟩)
    | repeated held distinct before =>
      exact stopped held distinct (.inr ⟨_, rfl, by simpa using before, rfl⟩)

theorem requestTimeoutOf_ok {time : Nat} :
    requestTimeoutOf document = .ok time ↔
      Absent document .requestTimeout ∧ time = defaultTimeout ∨
        document.Holds Field.requestTimeout.key (.integer time) ∧ 0 < time := by
  constructor
  · intro read
    unfold requestTimeoutOf at read
    split at read
    next bad =>
      cases read
      exact .inl ⟨absent_iff.2 bad, rfl⟩
    next value found =>
      split at read
      next positive =>
        cases read
        obtain ⟨time, rfl⟩ := Int.eq_ofNat_of_zero_le (Int.le_of_lt positive)
        exact .inr ⟨Yaml.Node.holds_of_get found nofun, Int.natCast_pos.1 positive⟩
      · cases read
    · cases read
  · intro given
    unfold requestTimeoutOf
    rcases given with ⟨absent, rfl⟩ | ⟨held, positive⟩
    · rw [absent_iff.1 absent]
    · rw [held.get_eq]
      exact if_pos (Int.natCast_pos.2 positive)

private theorem requestTimeoutOf_error :
    requestTimeoutOf document = .error error ↔ Refuses document .requestTimeout error := by
  constructor
  · intro read
    unfold requestTimeoutOf at read
    split at read
    · cases read
    next value found =>
      split at read
      · cases read
      next negative =>
        cases read
        refine .badTimeout (Yaml.Node.holds_of_get found nofun) nofun ?_
        rintro number positive same
        cases same
        exact negative positive
    next present other =>
      cases read
      refine .badTimeout (Yaml.Node.holds_of_get rfl present) present ?_
      intro number _ same
      exact other number same
  · intro refused
    unfold requestTimeoutOf
    cases refused with
    | badTimeout held present other =>
      rw [held.get_eq]
      split
      · exact absurd rfl present
      · next number => exact if_neg fun positive => other number positive rfl
      · rfl

theorem logLevelOf_ok {level : String} :
    logLevelOf document = .ok level ↔
      Absent document .logLevel ∧ level = defaultLogLevel ∨ document.Holds Field.logLevel.key (.string level) := by
  constructor
  · intro read
    unfold logLevelOf at read
    split at read
    next bad =>
      cases read
      exact .inl ⟨absent_iff.2 bad, rfl⟩
    next found =>
      cases read
      exact .inr (Yaml.Node.holds_of_get found nofun)
    · cases read
  · intro given
    unfold logLevelOf
    rcases given with ⟨absent, rfl⟩ | held
    · rw [absent_iff.1 absent]
    · rw [held.get_eq]

private theorem logLevelOf_error : logLevelOf document = .error error ↔ Refuses document .logLevel error := by
  constructor
  · intro read
    unfold logLevelOf at read
    split at read
    · cases read
    · cases read
    next present other =>
      cases read
      exact .badLogLevel (Yaml.Node.holds_of_get rfl present) present other
  · intro refused
    unfold logLevelOf
    cases refused with
    | badLogLevel held present other =>
      rw [held.get_eq]
      split
      · exact absurd rfl present
      · next level => exact absurd rfl (other level)
      · rfl

private theorem bind_ok {β γ : Type} {first : Except ConfigError β} {next : β → Except ConfigError γ} {result : γ}
    (read : (first >>= next) = .ok result) : ∃ value, first = .ok value ∧ next value = .ok result := by
  cases first with
  | error error => cases read
  | ok value => exact ⟨value, rfl, read⟩

theorem ofDocument_ok (fits : document.Fits) {c : Config} : ofDocument document = .ok c ↔ Describes document c := by
  constructor
  · intro read
    obtain ⟨nodeId, named, read⟩ := bind_ok read
    obtain ⟨listen, listening, read⟩ := bind_ok read
    obtain ⟨acceptors, listing, read⟩ := bind_ok read
    obtain ⟨requestTimeout, timed, read⟩ := bind_ok read
    obtain ⟨logLevel, logged, read⟩ := bind_ok read
    cases read
    obtain ⟨held, several, distinct⟩ := acceptorsOf_ok.1 listing
    exact ⟨(nodeIdOf_ok fits).1 named, listenOf_ok.1 listening, held, several, distinct, requestTimeoutOf_ok.1 timed,
      logLevelOf_ok.1 logged⟩
  · intro describes
    have named := (nodeIdOf_ok fits).2 describes.nodeId
    have listening := listenOf_ok.2 describes.listen
    have listing := acceptorsOf_ok.2 ⟨describes.acceptors, describes.nonempty, describes.distinct⟩
    have timed := requestTimeoutOf_ok.2 describes.requestTimeout
    have logged := logLevelOf_ok.2 describes.logLevel
    unfold ofDocument
    rw [named, listening, listing, timed, logged]
    rfl

private theorem firstRefusal_cons {field : Field} {rest : List Field} : FirstRefusal document (field :: rest) error ↔
    Refuses document field error ∨ (∀ other, ¬ Refuses document field other) ∧ FirstRefusal document rest error := by
  constructor
  · rintro ⟨before, first, after, order, passed, refused⟩
    rcases List.cons_eq_append_iff.1 order with ⟨rfl, same⟩ | ⟨before, rfl, same⟩
    · cases same
      exact .inl refused
    · refine .inr ⟨passed field List.mem_cons_self, before, first, after, same, ?_, refused⟩
      intro earlier member
      exact passed earlier (List.mem_cons_of_mem _ member)
  · rintro (refused | ⟨passed, before, first, after, rfl, passed', refused⟩)
    · exact ⟨[], field, rest, rfl, nofun, refused⟩
    · exact ⟨field :: before, first, after, rfl, List.forall_mem_cons.2 ⟨passed, passed'⟩, refused⟩

/-- A field is checked before those that come after it, and they are checked only if it passes. -/
theorem check_error {β γ : Type} {first : Except ConfigError β} {next : β → Except ConfigError γ} {field : Field}
    {rest : List Field} (refuses : ∀ {error}, first = .error error ↔ Refuses document field error)
    (later : ∀ value, next value = .error error ↔ FirstRefusal document rest error) :
    (first >>= next) = .error error ↔ FirstRefusal document (field :: rest) error := by
  rw [firstRefusal_cons]
  cases first with
  | error other =>
    have refused := refuses.1 rfl
    constructor
    · intro same
      cases same
      exact .inl refused
    · rintro (refused' | ⟨passed, _⟩)
      · exact congrArg Except.error (Except.error.inj (refuses.2 refused'))
      · exact absurd refused (passed other)
  | ok value =>
    have passed (other : ConfigError) (refused : Refuses document field other) : False := nomatch refuses.2 refused
    refine (later value).trans ⟨fun found => .inr ⟨passed, found⟩, ?_⟩
    rintro (refused | ⟨_, found⟩)
    · exact (passed error refused).elim
    · exact found

private theorem ofDocument_error : ofDocument document = .error error ↔ FirstRefusal document Field.order error := by
  have done {c : Config} : (Except.ok c : Except ConfigError Config) = .error error ↔ FirstRefusal document [] error := by
    refine ⟨nofun, ?_⟩
    rintro ⟨before, field, after, none, _⟩
    exact absurd none.symm (List.append_ne_nil_of_right_ne_nil _ nofun)
  exact check_error nodeIdOf_error fun _ => check_error listenOf_error fun _ => check_error acceptorsOf_error fun _ =>
    check_error requestTimeoutOf_error fun _ => check_error logLevelOf_error fun _ => done

theorem valid_iff (fits : document.Fits) : Valid document ↔ ∃ c, Describes document c := by
  constructor
  · intro valid
    obtain ⟨value, named, positive⟩ := valid.nodeId
    obtain ⟨listen, listening⟩ := valid.listen
    obtain ⟨acceptors, listing, several, distinct⟩ := valid.acceptors
    obtain ⟨nodeId, rfl⟩ : ∃ nodeId : UInt64, value = nodeId.toNat := by
      cases named.fits fits with
      | integer range =>
        refine ⟨value.toNat.toUInt64, ?_⟩
        rw [Nat.toUInt64_eq, UInt64.toNat_ofNat']
        omega
    obtain ⟨requestTimeout, timed⟩ : ∃ time, Absent document .requestTimeout ∧ time = defaultTimeout ∨
        document.Holds Field.requestTimeout.key (.integer (time : Nat)) ∧ 0 < time := by
      rcases valid.requestTimeout with absent | ⟨value, held, positive⟩
      · exact ⟨_, .inl ⟨absent, rfl⟩⟩
      · obtain ⟨time, rfl⟩ := Int.eq_ofNat_of_zero_le (Int.le_of_lt positive)
        exact ⟨time, .inr ⟨held, Int.natCast_pos.1 positive⟩⟩
    obtain ⟨logLevel, logged⟩ : ∃ level, Absent document .logLevel ∧ level = defaultLogLevel ∨
        document.Holds Field.logLevel.key (.string level) := by
      rcases valid.logLevel with absent | ⟨level, held⟩
      · exact ⟨_, .inl ⟨absent, rfl⟩⟩
      · exact ⟨level, .inr held⟩
    exact ⟨⟨nodeId, listen, acceptors, requestTimeout, logLevel⟩, named, listening, listing, several, distinct, timed,
      logged⟩
  · rintro ⟨c, describes⟩
    refine ⟨⟨_, describes.nodeId, Int.natCast_nonneg _⟩, ⟨_, describes.listen⟩,
      ⟨_, describes.acceptors, describes.nonempty, describes.distinct⟩, ?_, ?_⟩
    · rcases describes.requestTimeout with ⟨absent, _⟩ | ⟨held, positive⟩
      · exact .inl absent
      · exact .inr ⟨_, held, Int.natCast_pos.2 positive⟩
    · rcases describes.logLevel with ⟨absent, _⟩ | held
      · exact .inl absent
      · exact .inr ⟨_, held⟩

theorem Describes.timeout_pos {c : Config} (describes : Describes document c) : 0 < c.requestTimeout := by
  rcases describes.requestTimeout with ⟨_, default⟩ | ⟨_, positive⟩
  · rw [default]
    decide
  · exact positive

end

theorem describes_of_parse {text : String} {c : Config} (parsed : parse text = .ok c) :
    ∃ document rest, Yaml.documents text = .ok (document :: rest) ∧ Describes document c := by
  unfold parse at parsed
  split at parsed
  · cases parsed
  next documents scans =>
    cases documents with
    | nil => cases parsed
    | cons document rest =>
      have fits := Yaml.documents_fit scans document List.mem_cons_self
      exact ⟨document, rest, scans, (ofDocument_ok fits).1 parsed⟩

/-- A text whose documents can be read gives a description exactly if the first of them is valid, and then the
description that the document holds; the listed acceptors are all of them, in their order, and the timeout is
positive. Otherwise the error is that of the first field that is wrong, in the order of the checks. -/
theorem parse_accepts_valid {text : String} {documents : List Yaml.Node} (scans : Yaml.documents text = .ok documents) :
    (∀ c, parse text = .ok c ↔ ∃ document rest, documents = document :: rest ∧ Describes document c) ∧
    ((∃ c, parse text = .ok c) ↔ ∃ document rest, documents = document :: rest ∧ Valid document) ∧
    (∀ c, parse text = .ok c → 0 < c.requestTimeout) ∧
    ∀ error, parse text = .error error ↔ documents = [] ∧ error = .empty ∨
      ∃ document rest, documents = document :: rest ∧ FirstRefusal document Field.order error := by
  have parsed : parse text = ofDocuments documents := by
    unfold parse
    rw [scans]
  have described (c : Config) :
      parse text = .ok c ↔ ∃ document rest, documents = document :: rest ∧ Describes document c := by
    rw [parsed]
    cases documents with
    | nil => exact ⟨nofun, nofun⟩
    | cons document rest =>
      have fits := Yaml.documents_fit scans document List.mem_cons_self
      refine (ofDocument_ok fits).trans ⟨fun describes => ⟨document, rest, rfl, describes⟩, ?_⟩
      rintro ⟨_, _, same, describes⟩
      cases same
      exact describes
  refine ⟨described, ?_, ?_, ?_⟩
  · constructor
    · rintro ⟨c, read⟩
      obtain ⟨document, rest, rfl, describes⟩ := (described c).1 read
      have fits := Yaml.documents_fit scans document List.mem_cons_self
      exact ⟨document, rest, rfl, (valid_iff fits).2 ⟨c, describes⟩⟩
    · rintro ⟨document, rest, rfl, valid⟩
      have fits := Yaml.documents_fit scans document List.mem_cons_self
      obtain ⟨c, describes⟩ := (valid_iff fits).1 valid
      exact ⟨c, (described c).2 ⟨document, rest, rfl, describes⟩⟩
  · intro c read
    obtain ⟨_, _, _, describes⟩ := (described c).1 read
    exact describes.timeout_pos
  · intro error
    rw [parsed]
    cases documents with
    | nil =>
      constructor
      · intro read
        cases read
        exact .inl ⟨rfl, rfl⟩
      · rintro (⟨_, rfl⟩ | ⟨_, _, none, _⟩)
        · rfl
        · cases none
    | cons document rest =>
      refine ofDocument_error.trans ⟨fun refused => .inr ⟨document, rest, rfl, refused⟩, ?_⟩
      rintro (⟨none, _⟩ | ⟨_, _, same, refused⟩)
      · cases none
      · cases same
        exact refused

private theorem scans_of_error {text : String} {error : ConfigError} (refused : parse text = .error error)
    (other : ∀ broken, error ≠ .yaml broken) : ∃ documents, Yaml.documents text = .ok documents := by
  unfold parse at refused
  split at refused
  next broken _ =>
    cases refused
    exact absurd rfl (other broken)
  next documents scans => exact ⟨documents, scans⟩

/-- The second address comes again behind another one, before an entry that is no string and a level that is none. -/
theorem parse_accepts_valid_repeated :
    let text := "node_id: 1\nlisten: \"a:1\"\nacceptors: [\"a:1\", \"b:1\", \"c:1\", \"b:1\", 7]\nlog_level: 5\n"
    ∃ documents, Yaml.documents text = .ok documents ∧ ∃ document rest, documents = document :: rest ∧
      FirstRefusal document Field.order (.invalid .acceptors (.repeated "b:1")) := by
  intro text
  have refused : parse text = .error (.invalid .acceptors (.repeated "b:1")) := by decide +kernel
  obtain ⟨documents, scans⟩ := scans_of_error refused nofun
  refine ⟨documents, scans, ?_⟩
  rcases ((parse_accepts_valid scans).2.2.2 _).1 refused with ⟨_, impossible⟩ | found
  · cases impossible
  · exact found

end Config

end Synod
