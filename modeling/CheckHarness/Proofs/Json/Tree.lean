import CheckHarness.Json.Node

namespace CheckHarness.Json

namespace Node

mutual

/-- The tokens that spell a value. -/
def tokens : Node → List Token
  | .null => [.null]
  | .bool true => [.true]
  | .bool false => [.false]
  | .number lexeme => [.number lexeme]
  | .string body => [.string body]
  | .array [] => [.openBracket, .closeBracket]
  | .array (element :: elements) =>
    .openBracket :: (element.tokens ++ moreElements elements ++ [.closeBracket])
  | .object [] => [.openBrace, .closeBrace]
  | .object ((key, value) :: members) =>
    .openBrace :: .string key :: .colon :: (value.tokens ++ moreMembers members ++ [.closeBrace])

/-- The tokens of the elements after the first. -/
def moreElements : List Node → List Token
  | [] => []
  | element :: elements => .comma :: (element.tokens ++ moreElements elements)

/-- The tokens of the members after the first. -/
def moreMembers : List (Bytes × Node) → List Token
  | [] => []
  | (key, value) :: members =>
    .comma :: .string key :: .colon :: (value.tokens ++ moreMembers members)

end

end Node

namespace Builder

/-- Before a first element, everything but the end of the array is read as a value. -/
theorem step_firstElement {frames : List Frame} {token : Token} (htoken : token ≠ .closeBracket) :
    step ⟨frames, .firstElement⟩ token = step ⟨frames, .value⟩ token := by
  cases token with
  | closeBracket => exact absurd rfl htoken
  | _ => rfl

/-- A first element is read like any value. -/
theorem foldlM_firstElement (frames : List Frame) (node : Node) (more : List Token) :
    (node.tokens ++ more).foldlM step ⟨frames, .firstElement⟩ =
      (node.tokens ++ more).foldlM step ⟨frames, .value⟩ := by
  have hfirst : ∃ token rest, node.tokens = token :: rest ∧ token ≠ .closeBracket := by
    cases node with
    | null => exact ⟨_, _, rfl, by simp⟩
    | bool value => cases value <;> exact ⟨_, _, rfl, by simp⟩
    | number lexeme => exact ⟨_, _, rfl, by simp⟩
    | string body => exact ⟨_, _, rfl, by simp⟩
    | array elements => cases elements <;> exact ⟨_, _, rfl, by simp⟩
    | object members => cases members <;> exact ⟨_, _, rfl, by simp⟩
  obtain ⟨token, rest, htokens, htoken⟩ := hfirst
  rw [htokens, List.cons_append, List.foldlM_cons, List.foldlM_cons, step_firstElement htoken]

mutual

/-- Where a value may begin, its tokens are read as the value. -/
theorem foldlM_tokens (frames : List Frame) :
    ∀ node : Node, node.tokens.foldlM step ⟨frames, .value⟩ = some ⟨frames, .more node⟩
  | .null | .number _ | .string _ | .bool true | .bool false => rfl
  | .array [] => rfl
  | .array (element :: elements) => by
    rw [Node.tokens, List.foldlM_cons, List.append_assoc]
    refine (foldlM_firstElement _ element _).trans ?_
    rw [List.foldlM_append, foldlM_tokens _ element, Option.bind_eq_bind, Option.bind_some,
      foldlM_moreElements frames [] element elements]
    rfl
  | .object [] => rfl
  | .object ((key, value) :: members) => by
    rw [Node.tokens, List.append_assoc]
    change (value.tokens ++ _).foldlM step ⟨.object [] key :: frames, .value⟩ = _
    rw [List.foldlM_append, foldlM_tokens _ value, Option.bind_eq_bind, Option.bind_some,
      foldlM_moreMembers frames [] key value members]
    rfl

/-- After an element the others are read up to the end of the array. -/
theorem foldlM_moreElements (frames : List Frame) (read : List Node) (last : Node) :
    ∀ elements : List Node,
      (Node.moreElements elements ++ [Token.closeBracket]).foldlM step
          ⟨.array read :: frames, .more last⟩ =
        some ⟨frames, .more (.array (read.reverse ++ last :: elements))⟩
  | [] => by
    simp [Node.moreElements, step, afterValue]
  | element :: elements => by
    rw [Node.moreElements, List.cons_append, List.append_assoc]
    change (element.tokens ++ _).foldlM step ⟨.array (last :: read) :: frames, .value⟩ = _
    rw [List.foldlM_append, foldlM_tokens _ element, Option.bind_eq_bind, Option.bind_some,
      foldlM_moreElements frames (last :: read) element elements, List.reverse_cons,
      List.append_assoc, List.singleton_append]

/-- After a member the others are read up to the end of the object. -/
theorem foldlM_moreMembers (frames : List Frame) (read : List (Bytes × Node)) (key : Bytes)
    (last : Node) :
    ∀ members : List (Bytes × Node),
      (Node.moreMembers members ++ [Token.closeBrace]).foldlM step
          ⟨.object read key :: frames, .more last⟩ =
        some ⟨frames, .more (.object (read.reverse ++ (key, last) :: members))⟩
  | [] => by
    simp [Node.moreMembers, step, afterValue]
  | (next, value) :: members => by
    rw [Node.moreMembers, List.cons_append, List.cons_append, List.cons_append, List.append_assoc]
    change (value.tokens ++ _).foldlM step ⟨.object ((key, last) :: read) next :: frames, .value⟩ = _
    rw [List.foldlM_append, foldlM_tokens _ value, Option.bind_eq_bind, Option.bind_some,
      foldlM_moreMembers frames ((key, last) :: read) next value members, List.reverse_cons,
      List.append_assoc, List.singleton_append]

end

end Builder

/-- The tree of a tree's tokens is the tree. -/
theorem Node.ofTokens?_tokens (node : Node) : ofTokens? node.tokens = some node := by
  rw [ofTokens?, Builder.start, Builder.foldlM_tokens]
  rfl

end CheckHarness.Json
