import Synod.Json.Token

/-! How a value is spelled. The writer gathers tokens on a stack, last token first; here the stack is
gone, and the text of a container is put together from the texts of its items and members. -/

namespace Synod.Json

def memberTokens (member : String × Json) : List Token := .string (some member.1) :: .colon :: member.2.tokens

/-- The members behind the first one as tokens, each with the comma before it. -/
def moreTokens (members : List (String × Json)) : List Token := members.flatMap fun member => .comma :: memberTokens member

def moreItemTokens (items : List Json) : List Token := items.flatMap fun item => .comma :: item.tokens

def memberBytes (member : String × Json) : List UInt8 := quoted member.1 ++ 58 :: member.2.bytes

mutual

private theorem pushTokens_append (json : Json) (acc below : List Token) :
    pushTokens json (acc ++ below) = pushTokens json acc ++ below := by
  cases json with
  | null | bool _ | number _ | string _ => rfl
  | array items => exact congrArg (.closeArray :: ·) (pushItems_append items true (.openArray :: acc) below)
  | object members => exact congrArg (.closeObject :: ·) (pushMembers_append members true (.openObject :: acc) below)

private theorem pushItems_append (items : List Json) (first : Bool) (acc below : List Token) :
    pushItems items first (acc ++ below) = pushItems items first acc ++ below := by
  match items, first with
  | [], _ => rfl
  | item :: rest, true =>
    simp only [pushItems]
    rw [pushTokens_append item acc below, pushItems_append rest false _ below]
  | item :: rest, false =>
    simp only [pushItems]
    rw [← List.cons_append, pushTokens_append item _ below, pushItems_append rest false _ below]

private theorem pushMembers_append (members : List (String × Json)) (first : Bool) (acc below : List Token) :
    pushMembers members first (acc ++ below) = pushMembers members first acc ++ below := by
  match members, first with
  | [], _ => rfl
  | (name, value) :: rest, true =>
    simp only [pushMembers]
    rw [← List.cons_append, ← List.cons_append, pushTokens_append value _ below, pushMembers_append rest false _ below]
  | (name, value) :: rest, false =>
    simp only [pushMembers]
    rw [← List.cons_append, ← List.cons_append, ← List.cons_append, pushTokens_append value _ below,
      pushMembers_append rest false _ below]

end

private theorem pushTokens_eq (json : Json) (acc : List Token) : pushTokens json acc = json.tokens.reverse ++ acc := by
  simpa only [tokens, List.reverse_reverse, List.nil_append] using pushTokens_append json [] acc

theorem moreTokens_cons (member : String × Json) (rest : List (String × Json)) :
    moreTokens (member :: rest) = .comma :: (memberTokens member ++ moreTokens rest) := rfl

private theorem pushMembers_rest (members : List (String × Json)) (acc : List Token) :
    pushMembers members false acc = (moreTokens members).reverse ++ acc := by
  induction members generalizing acc with
  | nil => rfl
  | cons member rest ih => simp [pushMembers, ih, pushTokens_eq, moreTokens_cons, memberTokens]

theorem tokens_object_cons (member : String × Json) (rest : List (String × Json)) :
    (object (member :: rest)).tokens = .openObject :: (memberTokens member ++ moreTokens rest ++ [.closeObject]) := by
  rw [tokens, pushTokens, pushMembers, pushMembers_rest, pushTokens_eq]
  simp [memberTokens]

theorem moreItemTokens_cons (item : Json) (rest : List Json) :
    moreItemTokens (item :: rest) = .comma :: (item.tokens ++ moreItemTokens rest) := rfl

private theorem pushItems_rest (items : List Json) (acc : List Token) :
    pushItems items false acc = (moreItemTokens items).reverse ++ acc := by
  induction items generalizing acc with
  | nil => rfl
  | cons item rest ih => simp [pushItems, ih, pushTokens_eq, moreItemTokens_cons]

theorem tokens_array_cons (item : Json) (rest : List Json) :
    (array (item :: rest)).tokens = .openArray :: (item.tokens ++ moreItemTokens rest ++ [.closeArray]) := by
  rw [tokens, pushTokens, pushItems, pushItems_rest, pushTokens_eq]
  simp

theorem bytes_object_cons (member : String × Json) (rest : List (String × Json)) :
    (object (member :: rest)).bytes =
      123 :: (memberBytes member ++ (rest.flatMap fun member => 44 :: memberBytes member) ++ [125]) := by
  have spelled (member : String × Json) : (memberTokens member).flatMap Token.bytes = memberBytes member := rfl
  simp [bytes, tokens_object_cons, moreTokens, Token.bytes, spelled, List.flatMap_assoc]

theorem memberBytes_length (name : String) (value : Json) :
    (memberBytes (name, value)).length = (quoted name).length + value.bytes.length + 1 := by
  simp only [memberBytes, List.length_append, List.length_cons]
  omega

theorem bytes_object_length (member : String × Json) (rest : List (String × Json)) :
    (object (member :: rest)).bytes.length =
      (memberBytes member).length + (rest.flatMap fun member => 44 :: memberBytes member).length + 2 := by
  simp only [bytes_object_cons, List.length_cons, List.length_append, List.length_nil]

theorem bytesOf_ofList (chars : List Char) : bytesOf (String.ofList chars) = chars.flatMap String.utf8EncodeChar := by
  rw [bytesOf, String.toByteArray_ofList, List.utf8Encode, List.data_toByteArray]

theorem bytes_string (text : String) : (string text).bytes = quoted text := List.append_nil _

theorem quoted_length {text : String} (plain : ∀ byte ∈ bytesOf text, escape byte = [byte]) :
    (quoted text).length = (bytesOf text).length + 2 := by
  have kept : (bytesOf text).flatMap escape = bytesOf text := by
    rw [List.flatMap_def, List.map_congr_left plain, ← List.flatMap_def, List.flatMap_singleton']
  simp only [quoted, kept, List.length_cons, List.length_append, List.length_nil]

end Synod.Json
