import Synod.Json.Reader
import Synod.Proofs.JsonScan

/-! A reader finds a value again in its tokens. It is asked for one value and leaves what stands behind it. -/

namespace Synod.Json

def resume (room : Nat) (stack : List Container) (json : Json) (rest : List Token) : Except Fault (Json × List Token) :=
  match stack with
  | [] => .ok (json, rest)
  | container :: outer => build room (container.push json :: outer) .more rest

def Built (room : Nat) (json : Json) : Prop :=
  ∀ stack rest, build room stack .value (json.tokens ++ rest) = resume room stack json rest

theorem Built.member {room : Nat} {member : String × Json} (built : Built room member.2)
    (done : List (String × Json)) (name : String) (stack : List Container) (rest : List Token) :
    build room (.object done name :: stack) .name (memberTokens member ++ rest) =
      build room (.object (member :: done) member.1 :: stack) .more rest :=
  built (.object done member.1 :: stack) rest

private theorem build_members {room : Nat} {members : List (String × Json)}
    (built : ∀ member ∈ members, Built room member.2)
    (done : List (String × Json)) (name : String) (stack : List Container) (rest : List Token) :
    build room (.object done name :: stack) .more (moreTokens members ++ .closeObject :: rest) =
      resume (room + 1) stack (.object (done.reverse ++ members)) rest := by
  induction members generalizing done name with
  | nil =>
    rw [List.append_nil]
    cases stack <;> rfl
  | cons member more ih =>
    have comma : build room (.object done name :: stack) .more (moreTokens (member :: more) ++ .closeObject :: rest) =
        build room (.object done name :: stack) .name (memberTokens member ++ (moreTokens more ++ .closeObject :: rest)) := by
      rw [moreTokens_cons, List.cons_append, List.append_assoc]
      rfl
    rw [comma, (built member (by simp)).member, ih fun other among => built other (by simp [among])]
    simp

/-- Where the first item of an array may stand, a value is built as it is elsewhere. -/
theorem build_firstItem {room : Nat} {stack : List Container} {token : Token} (other : token ≠ .closeArray)
    (rest : List Token) : build room stack .firstItem (token :: rest) = build room stack .value (token :: rest) := by
  cases token with
  | closeArray => exact absurd rfl other
  | openArray | openObject => cases room <;> rfl
  | closeObject | comma =>
    cases stack with
    | nil => rfl
    | cons container _ => cases container <;> rfl
  | _ => rfl

private theorem tokens_cons (json : Json) : ∃ token rest, json.tokens = token :: rest ∧ token ≠ .closeArray := by
  cases json with
  | null | bool _ | number _ | string _ => exact ⟨_, _, rfl, nofun⟩
  | array items => cases items with
    | nil => exact ⟨_, _, rfl, nofun⟩
    | cons item more => exact ⟨_, _, tokens_array_cons item more, nofun⟩
  | object members => cases members with
    | nil => exact ⟨_, _, rfl, nofun⟩
    | cons member more => exact ⟨_, _, tokens_object_cons member more, nofun⟩

theorem Built.item {room : Nat} {item : Json} (built : Built room item) (done : List Json) (stack : List Container)
    (rest : List Token) : build room (.array done :: stack) .value (item.tokens ++ rest) =
      build room (.array (item :: done) :: stack) .more rest := built (.array done :: stack) rest

theorem Built.first {room : Nat} {item : Json} (built : Built room item) (stack : List Container) (rest : List Token) :
    build room (.array [] :: stack) .firstItem (item.tokens ++ rest) =
      build room (.array [item] :: stack) .more rest := by
  obtain ⟨token, more, spelled, other⟩ := tokens_cons item
  refine .trans ?_ (built.item [] stack rest)
  rw [spelled]
  exact build_firstItem other (more ++ rest)

private theorem build_items {room : Nat} {items : List Json} (built : ∀ item ∈ items, Built room item)
    (done : List Json) (stack : List Container) (rest : List Token) :
    build room (.array done :: stack) .more (moreItemTokens items ++ .closeArray :: rest) =
      resume (room + 1) stack (.array (done.reverse ++ items)) rest := by
  induction items generalizing done with
  | nil =>
    rw [List.append_nil]
    cases stack <;> rfl
  | cons item more ih =>
    have comma : build room (.array done :: stack) .more (moreItemTokens (item :: more) ++ .closeArray :: rest) =
        build room (.array done :: stack) .value (item.tokens ++ (moreItemTokens more ++ .closeArray :: rest)) := by
      rw [moreItemTokens_cons, List.cons_append, List.append_assoc]
      rfl
    rw [comma, (built item (by simp)).item, ih fun other among => built other (by simp [among])]
    simp

theorem Exact.built {room : Nat} {json : Json} (exact : Exact room json) {larger : Nat} (le : room ≤ larger) :
    Built larger json := by
  induction exact generalizing larger with
  | null | bool | number | string => exact fun stack _ => by cases stack <;> rfl
  | @array room items _ built =>
    obtain ⟨larger, rfl⟩ := Nat.exists_eq_add_of_le' (Nat.le_trans (Nat.le_add_left 1 room) le)
    have built item among := built item among (Nat.le_of_succ_le_succ le)
    intro stack rest
    cases items with
    | nil => cases stack <;> rfl
    | cons item more =>
      have opened : build (larger + 1) stack .value ((Json.array (item :: more)).tokens ++ rest) =
          build larger (.array [] :: stack) .firstItem
            (item.tokens ++ (moreItemTokens more ++ .closeArray :: rest)) := by
        simp only [tokens_array_cons, List.cons_append, List.append_assoc, List.nil_append]
        rfl
      rw [opened, (built item (by simp)).first, build_items fun other among => built other (by simp [among])]
      rfl
  | @object room members _ built =>
    obtain ⟨larger, rfl⟩ := Nat.exists_eq_add_of_le' (Nat.le_trans (Nat.le_add_left 1 room) le)
    have built member among := built member among (Nat.le_of_succ_le_succ le)
    intro stack rest
    cases members with
    | nil => cases stack <;> rfl
    | cons member more =>
      have opened : build (larger + 1) stack .value ((Json.object (member :: more)).tokens ++ rest) =
          build larger (.object [] "" :: stack) .name (memberTokens member ++ (moreTokens more ++ .closeObject :: rest)) := by
        simp only [tokens_object_cons, List.cons_append, List.append_assoc, List.nil_append]
        rfl
      rw [opened, (built member (by simp)).member, build_members fun other among => built other (by simp [among])]
      rfl

theorem Exact.read_tokens {room larger : Nat} {json : Json} (exact : Exact room json) (le : room ≤ larger)
    (rest : List Token) : read larger (json.tokens ++ rest) = .ok (json, rest) :=
  exact.built le [] rest

end Synod.Json
