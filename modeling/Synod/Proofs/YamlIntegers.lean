import Synod.Yaml.Node

/-! Whole numbers in documents. A scalar becomes an integer only if it fits a signed word of 64 bits, and no reader
makes integers of its own. So every integer of a document fits, however deep it stands and whatever anchor it came
through. -/

namespace Synod.Yaml

inductive Node.Fits : Node → Prop where
  | null : Fits .null
  | bool (value : Bool) : Fits (.bool value)
  | integer {value : Int} (fits : -0x8000000000000000 ≤ value ∧ value < 0x8000000000000000) : Fits (.integer value)
  | real (text : String) : Fits (.real text)
  | string (text : String) : Fits (.string text)
  | sequence {items : List Node} (fits : ∀ item ∈ items, Fits item) : Fits (.sequence items)
  | mapping {entries : List (Node × Node)} (keys : ∀ entry ∈ entries, Fits entry.1)
      (values : ∀ entry ∈ entries, Fits entry.2) : Fits (.mapping entries)
  | bad : Fits .bad

namespace Node

private theorem fits_of_wholeNumber? {base : Nat} {text : List Char} {value : Int}
    (read : wholeNumber? base text = some value) : (integer value).Fits := by
  unfold wholeNumber? at read
  dsimp only at read
  split at read
  · cases read
  · obtain ⟨size, _, read⟩ := Option.bind_eq_some_iff.1 read
    rw [Option.ite_none_right_eq_some] at read
    obtain ⟨fits, same⟩ := read
    rw [Option.some.inj same] at fits
    exact .integer fits

private theorem ofPlain_fits (text : String) : (ofPlain text).Fits := by
  unfold ofPlain
  dsimp only
  split
  next value found =>
    obtain ⟨base, digits, read⟩ : ∃ base digits, wholeNumber? base digits = some value := by
      rw [Option.or_eq_some_iff, Option.or_eq_some_iff] at found
      rcases found with found | ⟨_, found | ⟨_, found⟩⟩
      · split at found
        · rw [Option.ite_none_right_eq_some] at found
          exact ⟨_, _, found.2⟩
        · cases found
      · split at found
        · rw [Option.ite_none_right_eq_some] at found
          exact ⟨_, _, found.2⟩
        · cases found
      · split at found
        · exact ⟨_, _, found⟩
        · cases found
    exact fits_of_wholeNumber? read
  · split
    · exact .null
    split
    · exact .bool true
    split
    · exact .bool false
    split
    next read => exact fits_of_wholeNumber? read
    · split
      · exact .real text
      · exact .string text

private theorem ofTagged_fits (kind text : String) : (ofTagged kind text).Fits := by
  unfold ofTagged
  split
  · repeat' split
    · exact .bool true
    · exact .bool false
    · exact .bad
  · cases read : wholeNumber? 10 text.toList with
    | none => exact .bad
    | some value => exact fits_of_wholeNumber? read
  · split
    · exact .real text
    · exact .bad
  · split
    · exact .null
    · exact .bad
  · exact .string text

theorem ofScalar_fits (plain : Bool) (tag : Option (String × String)) (text : String) :
    (ofScalar plain tag text).Fits := by
  unfold ofScalar
  split
  · exact .string text
  split
  · exact ofPlain_fits text
  · exact ofTagged_fits _ text
  · exact .string text

private theorem omitted_fits : omitted.Fits := ofPlain_fits "~"

def AllFit (nodes : List Node) : Prop := ∀ node ∈ nodes, node.Fits

private theorem allFit_nil : AllFit [] := nofun

theorem AllFit.cons {node : Node} {nodes : List Node} (fits : node.Fits) (rest : AllFit nodes) :
    AllFit (node :: nodes) :=
  List.forall_mem_cons.2 ⟨fits, rest⟩

theorem pairUp_fits {nodes : List Node} (fits : AllFit nodes) : (mapping (pairUp nodes)).Fits := by
  have paired : ∀ entry ∈ pairUp nodes, entry.1 ∈ nodes ∧ entry.2 ∈ nodes := by
    fun_induction pairUp nodes with
    | case1 => nofun
    | case2 rest ih =>
      intro entry member
      obtain ⟨key, value⟩ := ih (fun node among => fits node (List.mem_cons_of_mem _ among)) entry member
      exact ⟨List.mem_cons_of_mem _ key, List.mem_cons_of_mem _ value⟩
    | case3 key value rest _ ih =>
      intro entry member
      rcases List.mem_cons.1 member with rfl | member
      · exact ⟨List.mem_cons_self, List.mem_cons_of_mem _ List.mem_cons_self⟩
      · obtain ⟨key', value'⟩ := ih (fun node among => fits node (by simp [among])) entry member
        exact ⟨by simp [key'], by simp [value']⟩
    | case4 => nofun
  exact .mapping (fun entry member => fits _ (paired entry member).1) fun entry member => fits _ (paired entry member).2

end Node

namespace Reader

open Yaml.Node (AllFit allFit_nil omitted_fits)

variable {α β : Type} {post : α → Prop} {post' : β → Prop}

def Noted (s : Reading) : Prop := ∀ entry ∈ s.nodes, entry.2.Fits

/-- A reader whose results have some property if the nodes behind the anchors fit, and that notes no others. -/
def Keeps (post : α → Prop) (reader : Reader α) : Prop :=
  ∀ s value s', Noted s → reader s = .ok (value, s') → post value ∧ Noted s'

theorem Keeps.pure {value : α} (holds : post value) : Keeps post (pure value) := by
  intro s value' s' noted read
  cases read
  exact ⟨holds, noted⟩

theorem Keeps.bind {first : Reader α} {next : α → Reader β} (kept : Keeps post first)
    (more : ∀ value, post value → Keeps post' (next value)) : Keeps post' (first >>= next) := by
  intro s value s' noted read
  change (first s >>= fun read => next read.1 read.2) = _ at read
  cases began : first s with
  | error error =>
    rw [began] at read
    cases read
  | ok read' =>
    rw [began] at read
    obtain ⟨holds, noted⟩ := kept s read'.1 read'.2 noted began
    exact more read'.1 holds read'.2 value s' noted read

private theorem keeps_fail (post : α → Prop) (reason : String) : Keeps post (fail reason) := by
  intro s value s' _ read
  cases read

private theorem keeps_get : Keeps Noted get := by
  intro s value s' noted read
  cases read
  exact ⟨noted, noted⟩

private theorem keeps_peek : Keeps (fun _ => True) peek := by
  refine keeps_get.bind fun s _ => ?_
  split
  · exact .pure trivial
  · exact keeps_fail _ _

private theorem keeps_drop : Keeps (fun _ => True) drop := by
  intro s value s' noted read
  cases read
  exact ⟨trivial, noted⟩

private theorem keeps_anchor (name : String) : Keeps (fun _ => True) (anchor name) := by
  intro s value s' noted read
  cases read
  exact ⟨trivial, noted⟩

private theorem keeps_complete (number : Option Nat) {node : Node} (fits : node.Fits) :
    Keeps Node.Fits (complete number node) := by
  intro s value s' noted read
  cases number with
  | none =>
    cases read
    exact ⟨fits, noted⟩
  | some number =>
    cases read
    refine ⟨fits, fun entry member => ?_⟩
    rcases List.mem_cons.1 member with rfl | member
    · exact fits
    · exact noted entry member

private theorem keeps_lookUp (name : String) : Keeps Node.Fits (lookUp name) := by
  refine keeps_get.bind fun s noted => ?_
  split
  · exact keeps_fail _ _
  next number _ =>
    cases found : s.nodes.lookup number with
    | none => exact .pure .bad
    | some node =>
      obtain ⟨before, after, entries, _⟩ := List.lookup_eq_some_iff.1 found
      exact .pure (noted (number, node) (by rw [entries]; simp))

private theorem keeps_isNext (tokens : List Token) : Keeps (fun _ => True) (isNext tokens) :=
  keeps_peek.bind fun _ _ => .pure trivial

private theorem keeps_properties : Keeps (fun _ => True) properties := by
  unfold properties
  refine keeps_peek.bind fun token _ => ?_
  split
  · refine keeps_drop.bind fun _ _ => (keeps_anchor _).bind fun _ _ => keeps_peek.bind fun token _ => ?_
    split
    · exact keeps_drop.bind fun _ _ => .pure trivial
    · exact .pure trivial
  · refine keeps_drop.bind fun _ _ => keeps_peek.bind fun token _ => ?_
    split
    · exact keeps_drop.bind fun _ _ => (keeps_anchor _).bind fun _ _ => .pure trivial
    · exact .pure trivial
  · exact .pure trivial

private theorem keeps_bare (number : Option Nat) (tag : Option (String × String)) :
    Keeps Node.Fits (bare number tag) := by
  unfold bare
  split
  · exact keeps_complete number (Node.ofScalar_fits true tag "")
  · exact keeps_fail _ _

private theorem keeps_separator {first : Bool} {reason : String} {more : Unit → Reader α}
    (kept : Keeps post (more ())) : Keeps post (if (!first) = true then do
        if ← isNext [.flowEntry] then
          let done ← drop
          more done
        else
          let done ← fail reason
          more done
      else more ()) := by
  split
  · refine (keeps_isNext _).bind fun comma _ => ?_
    split
    · exact keeps_drop.bind fun _ _ => kept
    · exact (keeps_fail (fun _ => False) reason).bind fun _ impossible => impossible.elim
  · exact kept

/-- What all readers of nodes keep that descend so far. -/
structure KeepsAll (fuel : Nat) : Prop where
  node : ∀ block indentless, Keeps Node.Fits (node block indentless fuel)
  nodeBefore : ∀ ends block indentless, Keeps Node.Fits (nodeBefore ends block indentless fuel)
  blockItems : Keeps AllFit (blockItems fuel)
  looseItems : Keeps AllFit (looseItems fuel)
  blockEntries : Keeps AllFit (blockEntries fuel)
  valueBefore : ∀ ends block indentless, Keeps Node.Fits (valueBefore ends block indentless fuel)
  flowEntries : ∀ first, Keeps AllFit (flowEntries first fuel)
  flowItems : ∀ first, Keeps AllFit (flowItems first fuel)
  singleEntry : Keeps AllFit (singleEntry fuel)

namespace KeepsAll

variable {fuel : Nat}

private theorem node_step (kept : KeepsAll fuel) (block indentless : Bool) :
    Keeps Node.Fits (Reader.node block indentless (fuel + 1)) := by
  unfold Reader.node
  refine keeps_peek.bind fun token _ => ?_
  split
  · exact keeps_drop.bind fun _ _ => keeps_lookUp _
  · refine keeps_properties.bind fun found _ => keeps_peek.bind fun token _ => ?_
    split
    · split
      · exact kept.looseItems.bind fun items fits => keeps_complete _ (.sequence fits)
      · exact keeps_bare _ _
    · exact keeps_drop.bind fun _ _ => keeps_complete _ (Node.ofScalar_fits _ _ _)
    · exact keeps_drop.bind fun _ _ => (kept.flowItems true).bind fun items fits => keeps_complete _ (.sequence fits)
    · exact keeps_drop.bind fun _ _ => (kept.flowEntries true).bind fun items fits => keeps_complete _ (Node.pairUp_fits fits)
    · split
      · exact keeps_drop.bind fun _ _ => kept.blockItems.bind fun items fits => keeps_complete _ (.sequence fits)
      · exact keeps_bare _ _
    · split
      · exact keeps_drop.bind fun _ _ => kept.blockEntries.bind fun items fits => keeps_complete _ (Node.pairUp_fits fits)
      · exact keeps_bare _ _
    · exact keeps_bare _ _

private theorem nodeBefore_step (kept : KeepsAll fuel) (ends : List Token) (block indentless : Bool) :
    Keeps Node.Fits (Reader.nodeBefore ends block indentless (fuel + 1)) := by
  unfold Reader.nodeBefore
  refine (keeps_isNext _).bind fun ending _ => ?_
  split
  · exact .pure omitted_fits
  · exact kept.node block indentless

private theorem blockItems_step (kept : KeepsAll fuel) : Keeps AllFit (Reader.blockItems (fuel + 1)) := by
  unfold Reader.blockItems
  refine keeps_peek.bind fun token _ => ?_
  split
  · exact keeps_drop.bind fun _ _ => .pure allFit_nil
  · exact keeps_drop.bind fun _ _ => (kept.nodeBefore _ _ _).bind fun item fits =>
      kept.blockItems.bind fun items rest => .pure (.cons fits rest)
  · exact keeps_fail _ _

private theorem looseItems_step (kept : KeepsAll fuel) : Keeps AllFit (Reader.looseItems (fuel + 1)) := by
  unfold Reader.looseItems
  refine keeps_peek.bind fun token _ => ?_
  split
  · exact keeps_drop.bind fun _ _ => (kept.nodeBefore _ _ _).bind fun item fits =>
      kept.looseItems.bind fun items rest => .pure (.cons fits rest)
  · exact .pure allFit_nil

private theorem blockEntries_step (kept : KeepsAll fuel) : Keeps AllFit (Reader.blockEntries (fuel + 1)) := by
  unfold Reader.blockEntries
  refine keeps_peek.bind fun token _ => ?_
  split
  · exact keeps_drop.bind fun _ _ => .pure allFit_nil
  · exact keeps_drop.bind fun _ _ => (kept.nodeBefore _ _ _).bind fun key fits =>
      (kept.valueBefore _ _ _).bind fun value fits' => kept.blockEntries.bind fun entries rest =>
        .pure (.cons fits (.cons fits' rest))
  · exact (kept.valueBefore _ _ _).bind fun value fits => kept.blockEntries.bind fun entries rest =>
      .pure (.cons omitted_fits (.cons fits rest))
  · exact keeps_fail _ _

private theorem valueBefore_step (kept : KeepsAll fuel) (ends : List Token) (block indentless : Bool) :
    Keeps Node.Fits (Reader.valueBefore ends block indentless (fuel + 1)) := by
  unfold Reader.valueBefore
  refine keeps_peek.bind fun token _ => ?_
  split
  · exact keeps_drop.bind fun _ _ => kept.nodeBefore _ _ _
  · exact .pure omitted_fits

private theorem flowEntries_step (kept : KeepsAll fuel) (first : Bool) :
    Keeps AllFit (Reader.flowEntries first (fuel + 1)) := by
  unfold Reader.flowEntries
  refine (keeps_isNext _).bind fun ended _ => ?_
  split
  · exact keeps_drop.bind fun _ _ => .pure allFit_nil
  · extract_lets more
    refine keeps_separator (keeps_peek.bind fun token _ => ?_)
    split
    · exact keeps_drop.bind fun _ _ => .pure allFit_nil
    · exact keeps_drop.bind fun _ _ => (kept.nodeBefore _ _ _).bind fun key fits =>
        (kept.valueBefore _ _ _).bind fun value fits' => (kept.flowEntries false).bind fun entries rest =>
          .pure (.cons fits (.cons fits' rest))
    · exact (kept.valueBefore _ _ _).bind fun value fits => (kept.flowEntries false).bind fun entries rest =>
        .pure (.cons omitted_fits (.cons fits rest))
    · exact (kept.node _ _).bind fun key fits => (kept.flowEntries false).bind fun entries rest =>
        .pure (.cons fits (.cons omitted_fits rest))

private theorem flowItems_step (kept : KeepsAll fuel) (first : Bool) :
    Keeps AllFit (Reader.flowItems first (fuel + 1)) := by
  unfold Reader.flowItems
  refine (keeps_isNext _).bind fun ended _ => ?_
  split
  · exact keeps_drop.bind fun _ _ => .pure allFit_nil
  · extract_lets more
    refine keeps_separator (keeps_peek.bind fun token _ => ?_)
    split
    · exact keeps_drop.bind fun _ _ => .pure allFit_nil
    · exact keeps_drop.bind fun _ _ => kept.singleEntry.bind fun entry fits =>
        (kept.flowItems false).bind fun items rest => .pure (.cons (Node.pairUp_fits fits) rest)
    · exact (kept.node _ _).bind fun item fits => (kept.flowItems false).bind fun items rest =>
        .pure (.cons fits rest)

private theorem singleEntry_step (kept : KeepsAll fuel) : Keeps AllFit (Reader.singleEntry (fuel + 1)) := by
  unfold Reader.singleEntry
  refine (keeps_isNext _).bind fun omitted _ => ?_
  extract_lets more
  have paired (key : Node) (fits : key.Fits) : Keeps AllFit (more key) := by
    refine keeps_peek.bind fun token _ => ?_
    split
    · exact keeps_drop.bind fun _ _ => (kept.nodeBefore _ _ _).bind fun value fits' =>
        .pure (.cons fits (.cons fits' allFit_nil))
    · exact .pure (.cons fits (.cons omitted_fits allFit_nil))
  split
  · exact keeps_drop.bind fun _ _ => paired _ omitted_fits
  · exact (kept.node _ _).bind paired

theorem step (kept : KeepsAll fuel) : KeepsAll (fuel + 1) where
  node := kept.node_step
  nodeBefore := kept.nodeBefore_step
  blockItems := kept.blockItems_step
  looseItems := kept.looseItems_step
  blockEntries := kept.blockEntries_step
  valueBefore := kept.valueBefore_step
  flowEntries := kept.flowEntries_step
  flowItems := kept.flowItems_step
  singleEntry := kept.singleEntry_step

end KeepsAll

theorem keepsAll (fuel : Nat) : KeepsAll fuel := by
  induction fuel with
  | zero =>
    constructor
    all_goals intros; exact keeps_fail _ _
  | succ fuel ih => exact ih.step

private theorem keeps_dropAll (token : Token) (fuel : Nat) : Keeps (fun _ => True) (dropAll token fuel) := by
  induction fuel with
  | zero => exact .pure trivial
  | succ fuel ih =>
    unfold dropAll
    refine (keeps_isNext _).bind fun more _ => ?_
    split
    · exact keeps_drop.bind fun _ _ => ih
    · exact .pure trivial

private theorem keeps_forget : Keeps (fun _ => True) (modify fun s => { s with names := [] }) := by
  intro s value s' noted read
  cases read
  exact ⟨trivial, noted⟩

theorem keeps_documents (depth : Nat) (first : Bool) (fuel : Nat) : Keeps AllFit (documents depth first fuel) := by
  induction fuel generalizing first with
  | zero => exact keeps_fail _ _
  | succ fuel ih =>
    unfold documents
    extract_lets finish begin
    have finished (document : Node) (fits : document.Fits) : Keeps AllFit (finish document) := by
      refine (keeps_isNext _).bind fun ending _ => ?_
      extract_lets more
      have others : Keeps AllFit (more ()) := (ih false).bind fun documents rest => .pure (.cons fits rest)
      split
      · exact keeps_drop.bind fun _ _ => others
      · exact others
    have begun : Keeps AllFit (begin ()) := by
      refine (keeps_isNext _).bind fun ending _ => ?_
      split
      · exact .pure allFit_nil
      · refine (keeps_isNext _).bind fun marked _ => ?_
        extract_lets implicit content
        have contained : Keeps AllFit (content ()) := by
          refine keeps_forget.bind fun _ _ => ?_
          split
          · exact ((keepsAll depth).node _ _).bind finished
          · exact ((keepsAll depth).nodeBefore _ _ _).bind finished
        split
        · refine (keeps_dropAll _ depth).bind fun _ _ => (keeps_isNext _).bind fun start _ => ?_
          split
          · exact keeps_drop.bind fun _ _ => contained
          · exact (keeps_fail (fun _ => False) _).bind fun _ impossible => impossible.elim
        · exact contained
    split
    · exact (keeps_dropAll _ depth).bind fun _ _ => begun
    · exact begun

end Reader

/-- No integer of a text's documents is out of range. -/
theorem documents_fit {text : String} {documents : List Node} (scans : Yaml.documents text = .ok documents) :
    Node.AllFit documents := by
  unfold Yaml.documents at scans
  cases scanned : Token.scan text with
  | error error =>
    rw [scanned] at scans
    cases scans
  | ok tokens =>
    rw [scanned] at scans
    change ((Reader.documents _ _ _ _) >>= fun read => Except.ok read.1) = _ at scans
    cases read : Reader.documents (4 * tokens.length + 8) true (4 * tokens.length + 8) ⟨tokens, [], [], 0⟩ with
    | error error =>
      rw [read] at scans
      cases scans
    | ok result =>
      rw [read] at scans
      cases scans
      have unnoted : Reader.Noted ⟨tokens, [], [], 0⟩ := by
        intro entry member
        cases member
      exact (Reader.keeps_documents _ _ _ _ _ _ unnoted read).1

end Synod.Yaml
