import ServiceContract.Proofs.Yaml.Tokens
import ServiceContract.Yaml.Node

/-!
# The node of the tokens of a tree

The tokens of a tree are parsed as its node. Printed trees have neither anchors nor tags, so a node
starts with its own token (`opensNode`), and what ends a node never does. The proof follows the
tokens; there is fuel enough for as many steps as there are tokens.
-/

namespace ServiceContract.Yaml.Node

variable {token : Token} {rest : List Token} {anchors : List (String × Nat)}
  {handles : List (String × String)} {fuel : Nat} {place : Place}

/-! ## Steps -/

/-- The tokens that a printed node starts with, entries apart. -/
def opensNode : Token → Bool
  | .scalar .. | .flowSequenceStart | .flowMappingStart | .blockSequenceStart
  | .blockMappingStart => true
  | _ => false

theorem opensNode_toTokens (value : Json) :
    toTokens value ≠ [] ∧ ∀ token ∈ (toTokens value).head?, opensNode token = true := by
  match value with
  | .null | .bool true | .bool false | .number _ | .string _ | .array [] | .array (_ :: _)
  | .object [] | .object (_ :: _) =>
    rw [toTokens]
    refine ⟨by simp, ?_⟩
    rintro token ⟨⟩
    rfl

theorem toTokens_array (item : Json) (items : List Json) :
    toTokens (.array (item :: items)) =
      .blockSequenceStart :: (itemTokens (item :: items) ++ [.blockEnd]) := by
  rw [toTokens, itemTokens]
  rfl

theorem toTokens_object (m : String × Json) (members : List (String × Json)) :
    toTokens (.object (m :: members)) =
      .blockMappingStart :: (memberTokens (m :: members) ++ [.blockEnd]) := by
  rw [toTokens, memberTokens]
  rfl

theorem valueTokens_array (item : Json) (items : List Json) :
    valueTokens (.array (item :: items)) = itemTokens (item :: items) := by
  rw [valueTokens, itemTokens]

theorem startsValue (value : Json) : valueTokens value ≠ [] ∧
    ∀ token ∈ (valueTokens value).head?, opensNode token = true ∨ token = .blockEntry := by
  match value with
  | .array (item :: items) =>
    rw [valueTokens]
    refine ⟨by simp, ?_⟩
    rintro token ⟨⟩
    exact .inr rfl
  | .null | .bool _ | .number _ | .string _ | .array [] | .object _ =>
    rw [valueTokens]
    · exact ⟨(opensNode_toTokens _).1, fun token h => .inl ((opensNode_toTokens _).2 token h)⟩
    · simp

theorem properties?_eq (token : Token) (h : opensNode token = true ∨ token = .blockEntry) :
    Parser.properties? ⟨token :: rest, anchors, handles⟩ =
      some (.none, ⟨token :: rest, anchors, handles⟩) := by
  rcases h with h | rfl
  · cases token <;> first | rfl | cases h
  · rfl

theorem read_scalar (style : ScalarStyle) (text : String) :
    read (fuel + 1) place ⟨.scalar style text :: rest, anchors, handles⟩ =
      some (.scalar none none style text, ⟨rest, anchors, handles⟩) := by
  rfl

theorem read_emptySequence (enough : 0 < fuel) :
    read (fuel + 1) place ⟨.flowSequenceStart :: .flowSequenceEnd :: rest, anchors, handles⟩ =
      some (.sequence none none [], ⟨rest, anchors, handles⟩) := by
  obtain ⟨fuel, rfl⟩ : ∃ m, fuel = m + 1 := ⟨fuel - 1, by omega⟩
  rfl

theorem read_emptyMapping (enough : 0 < fuel) :
    read (fuel + 1) place ⟨.flowMappingStart :: .flowMappingEnd :: rest, anchors, handles⟩ =
      some (.mapping none none [], ⟨rest, anchors, handles⟩) := by
  obtain ⟨fuel, rfl⟩ : ∃ m, fuel = m + 1 := ⟨fuel - 1, by omega⟩
  rfl

theorem read_blockSequence (block : place.block = true) {items : List Node} {parser : Parser}
    (h : blockItems (read fuel) fuel ⟨rest, anchors, handles⟩ = some (items, parser)) :
    read (fuel + 1) place ⟨.blockSequenceStart :: rest, anchors, handles⟩ =
      some (.sequence none none items, parser) := by
  simp [read, Parser.next?, properties?_eq .blockSequenceStart (.inl rfl), Parser.skip,
    Properties.none, block, h]

theorem read_blockMapping (block : place.block = true) {pairs : List (Node × Node)}
    {parser : Parser}
    (h : blockPairs (read fuel) fuel ⟨rest, anchors, handles⟩ = some (pairs, parser)) :
    read (fuel + 1) place ⟨.blockMappingStart :: rest, anchors, handles⟩ =
      some (.mapping none none pairs, parser) := by
  simp [read, Parser.next?, properties?_eq .blockMappingStart (.inl rfl), Parser.skip,
    Properties.none, block, h]

theorem read_indentless (indentless : place.indentless = true) {items : List Node}
    {parser : Parser}
    (h : indentlessItems (read fuel) fuel ⟨.blockEntry :: rest, anchors, handles⟩ =
      some (items, parser)) :
    read (fuel + 1) place ⟨.blockEntry :: rest, anchors, handles⟩ =
      some (.sequence none none items, parser) := by
  simp [read, Parser.next?, properties?_eq .blockEntry (.inr rfl), Properties.none,
    indentless, h]

/-- A node is read in full unless it starts like what ends it. -/
theorem orOmitted_eq (reader : NodeReader) (place : Place) (ends tokens : List Token)
    (nonempty : tokens ≠ []) (h : ∀ token ∈ tokens.head?, token ∉ ends) :
    orOmitted reader place ends ⟨tokens ++ rest, anchors, handles⟩ =
      reader place ⟨tokens ++ rest, anchors, handles⟩ := by
  obtain ⟨token, tokens, rfl⟩ := List.exists_cons_of_ne_nil nonempty
  have other : token ∉ ends := h token rfl
  simp [orOmitted, Parser.nextIn, Parser.next?, other]

theorem not_mem_of_opens {ends : List Token} (closing : ends.any opensNode = false)
    (h : opensNode token = true) : token ∉ ends :=
  fun hmem => List.any_eq_false.1 closing token hmem h

section Entries

variable {reader : NodeReader} {item : Node} {items : List Node} {tokens : List Token}
  {parser later : Parser} {count : Nat}

theorem blockItems_entry (nonempty : tokens ≠ [])
    (starts : ∀ token ∈ tokens.head?, opensNode token = true)
    (first : reader ⟨true, false⟩ ⟨tokens ++ rest, anchors, handles⟩ = some (item, parser))
    (others : blockItems reader count parser = some (items, later)) :
    blockItems reader (count + 1) ⟨.blockEntry :: tokens ++ rest, anchors, handles⟩ =
      some (item :: items, later) := by
  have here : ∀ token ∈ tokens.head?, token ∉ [.blockEntry, .blockEnd] :=
    fun token htoken => not_mem_of_opens rfl (starts token htoken)
  rw [List.cons_append, blockItems]
  simp only [Parser.next?, List.head?_cons, Parser.skip, List.tail_cons,
    orOmitted_eq reader _ _ tokens nonempty here, first, others, Option.map_some]

theorem indentlessItems_entry (nonempty : tokens ≠ [])
    (starts : ∀ token ∈ tokens.head?, opensNode token = true)
    (first : reader ⟨true, false⟩ ⟨tokens ++ rest, anchors, handles⟩ = some (item, parser))
    (others : indentlessItems reader count parser = some (items, later)) :
    indentlessItems reader (count + 1) ⟨.blockEntry :: tokens ++ rest, anchors, handles⟩ =
      some (item :: items, later) := by
  have here : ∀ token ∈ tokens.head?, token ∉ [.blockEntry, .key, .value, .blockEnd] :=
    fun token htoken => not_mem_of_opens rfl (starts token htoken)
  rw [List.cons_append, indentlessItems]
  simp only [Parser.next?, List.head?_cons, Parser.skip, List.tail_cons,
    orOmitted_eq reader _ _ tokens nonempty here, first, others, Option.map_some]

theorem blockPairs_member {key : String} {value : Node} {pairs : List (Node × Node)}
    (nonempty : tokens ≠ [])
    (starts : ∀ token ∈ tokens.head?, opensNode token = true ∨ token = .blockEntry)
    (first : read fuel ⟨true, true⟩ ⟨tokens ++ rest, anchors, handles⟩ = some (value, parser))
    (others : blockPairs (read fuel) count parser = some (pairs, later)) :
    blockPairs (read fuel) (count + 1)
        ⟨.key :: .scalar .plain key :: .value :: tokens ++ rest, anchors, handles⟩ =
      some ((plainNode key, value) :: pairs, later) := by
  have here : ∀ token ∈ tokens.head?, token ∉ [.key, .value, .blockEnd] := by
    intro token htoken
    rcases starts token htoken with opens | rfl
    · exact not_mem_of_opens rfl opens
    · simp
  cases fuel with
  | zero => cases first
  | succ fuel =>
    have keyRead : orOmitted (read (fuel + 1)) ⟨true, true⟩ [.key, .value, .blockEnd]
        ⟨.scalar .plain key :: .value :: tokens ++ rest, anchors, handles⟩ =
          some (plainNode key, ⟨.value :: tokens ++ rest, anchors, handles⟩) :=
      (orOmitted_eq _ _ _ [.scalar .plain key] (by simp) (by simp)).trans (read_scalar .plain key)
    simp only [List.cons_append] at keyRead ⊢
    rw [blockPairs]
    simp only [Parser.next?, List.head?_cons, Parser.skip, List.tail_cons, keyRead, Parser.nextIs,
      beq_self_eq_true, ↓reduceIte, orOmitted_eq _ _ _ tokens nonempty here, first, others,
      Option.map_some]

theorem blockPairs_end (more : 0 < count) :
    blockPairs reader count ⟨.blockEnd :: rest, anchors, handles⟩ =
      some ([], ⟨rest, anchors, handles⟩) := by
  obtain ⟨count, rfl⟩ : ∃ m, count = m + 1 := ⟨count - 1, by omega⟩
  rfl

/-- A key with its value at the end of its block. -/
theorem blockPairs_last (key : String) {value : Node} (opens : opensNode token = true)
    (first : read fuel ⟨true, true⟩ ⟨token :: tokens, anchors, handles⟩ =
      some (value, ⟨.blockEnd :: rest, anchors, handles⟩)) (more : 1 < count) :
    blockPairs (read fuel) count
        ⟨.key :: .scalar .plain key :: .value :: token :: tokens, anchors, handles⟩ =
      some ([(plainNode key, value)], ⟨rest, anchors, handles⟩) := by
  obtain ⟨count, rfl⟩ : ∃ m, count = m + 1 := ⟨count - 1, by omega⟩
  have starts : ∀ start ∈ [token].head?, opensNode start = true ∨ start = .blockEntry := by
    rintro start ⟨⟩
    exact .inl opens
  exact blockPairs_member (List.cons_ne_nil token []) starts first (blockPairs_end (by omega))

/-- A key whose value is left out at the end of its block. -/
theorem blockPairs_omitted (key : String) (enough : 0 < fuel) (more : 1 < count) :
    blockPairs (read fuel) count
        ⟨.key :: .scalar .plain key :: .value :: .blockEnd :: rest, anchors, handles⟩ =
      some ([(plainNode key, omitted)], ⟨rest, anchors, handles⟩) := by
  obtain ⟨count, rfl⟩ : ∃ m, count = m + 2 := ⟨count - 2, by omega⟩
  obtain ⟨fuel, rfl⟩ : ∃ m, fuel = m + 1 := ⟨fuel - 1, by omega⟩
  rfl

end Entries

/-- Every item has the token of its entry and one of its own. -/
theorem length_le_itemTokens (items : List Json) :
    2 * items.length ≤ (itemTokens items).length := by
  induction items with
  | nil => exact Nat.zero_le _
  | cons item items ih =>
    have first : 0 < (toTokens item).length := List.length_pos_iff.2 (opensNode_toTokens item).1
    rw [itemTokens, List.length_append, List.length_cons, List.length_cons]
    omega

theorem length_le_memberTokens (members : List (String × Json)) :
    members.length ≤ (memberTokens members).length := by
  induction members with
  | nil => exact Nat.zero_le _
  | cons m members ih =>
    obtain ⟨key, value⟩ := m
    rw [memberTokens, List.length_append, List.length_cons, List.length_cons]
    omega

/-! ## Trees -/

mutual

theorem read_toTokens : (value : Json) → ∀ {fuel place rest}, place.block = true →
    (toTokens value).length < fuel →
    read fuel place ⟨toTokens value ++ rest, anchors, handles⟩ =
      some (toNode value, ⟨rest, anchors, handles⟩)
  | .null, fuel + 1, place, rest, _, _ => by
    rw [toTokens, toNode]
    exact read_scalar .plain "null"
  | .bool true, fuel + 1, place, rest, _, _ => by
    rw [toTokens, toNode]
    exact read_scalar .plain "true"
  | .bool false, fuel + 1, place, rest, _, _ => by
    rw [toTokens, toNode]
    exact read_scalar .plain "false"
  | .number n, fuel + 1, place, rest, _, _ => by
    rw [toTokens, toNode]
    exact read_scalar .plain _
  | .string s, fuel + 1, place, rest, _, _ => by
    rw [toTokens, toNode]
    exact read_scalar _ s
  | .array [], fuel + 1, place, rest, _, enough => by
    rw [toTokens] at enough ⊢
    rw [toNode, toNodes]
    exact read_emptySequence (by simp at enough; omega)
  | .object [], fuel + 1, place, rest, _, enough => by
    rw [toTokens] at enough ⊢
    rw [toNode, toPairs]
    exact read_emptyMapping (by simp at enough; omega)
  | .array (item :: items), fuel + 1, place, rest, block, enough => by
    rw [toTokens_array] at enough ⊢
    simp only [List.length_cons, List.length_append, List.length_nil] at enough
    have count := length_le_itemTokens (item :: items)
    rw [toNode, List.cons_append, List.append_assoc]
    exact read_blockSequence block (blockItems_itemTokens (item :: items) (by omega) (by omega))
  | .object (m :: members), fuel + 1, place, rest, block, enough => by
    rw [toTokens_object] at enough ⊢
    simp only [List.length_cons, List.length_append, List.length_nil] at enough
    have count := length_le_memberTokens (m :: members)
    have more : (m :: members).length < fuel := by omega
    have pairs : blockPairs (read fuel) fuel
        ⟨memberTokens (m :: members) ++ .blockEnd :: rest, anchors, handles⟩ =
          some (toPairs (m :: members) ++ [], ⟨rest, anchors, handles⟩) :=
      blockPairs_memberTokens (m :: members) (by omega) (Nat.le_of_lt more) (by simp)
        (blockPairs_end (Nat.sub_pos_of_lt more))
    rw [List.append_nil] at pairs
    rw [toNode, List.cons_append, List.append_assoc]
    exact read_blockMapping block pairs

theorem blockItems_itemTokens : (items : List Json) → ∀ {fuel count rest},
    (itemTokens items).length < fuel → items.length < count →
    blockItems (read fuel) count ⟨itemTokens items ++ .blockEnd :: rest, anchors, handles⟩ =
      some (toNodes items, ⟨rest, anchors, handles⟩)
  | [], fuel, count + 1, rest, _, _ => by
    rw [itemTokens, toNodes]
    rfl
  | item :: items, fuel, count + 1, rest, enough, more => by
    rw [itemTokens] at enough ⊢
    simp only [List.length_cons, List.length_append] at enough more
    rw [toNodes, List.append_assoc]
    exact blockItems_entry (opensNode_toTokens item).1 (opensNode_toTokens item).2
      (read_toTokens item rfl (by omega)) (blockItems_itemTokens items (by omega) (by omega))

theorem indentlessItems_itemTokens : (items : List Json) → ∀ {fuel count rest},
    (itemTokens items).length ≤ fuel → items.length < count → rest.head? ≠ some .blockEntry →
    indentlessItems (read fuel) count ⟨itemTokens items ++ rest, anchors, handles⟩ =
      some (toNodes items, ⟨rest, anchors, handles⟩)
  | [], fuel, count + 1, rest, _, _, ends => by
    rw [itemTokens, toNodes, List.nil_append]
    unfold indentlessItems Parser.next?
    dsimp only
    split
    · rename_i entry
      exact absurd entry ends
    · rfl
  | item :: items, fuel, count + 1, rest, enough, more, ends => by
    rw [itemTokens] at enough ⊢
    simp only [List.length_cons, List.length_append] at enough more
    rw [toNodes, List.append_assoc]
    exact indentlessItems_entry (opensNode_toTokens item).1 (opensNode_toTokens item).2
      (read_toTokens item rfl (by omega))
      (indentlessItems_itemTokens items (by omega) (by omega) ends)

theorem blockPairs_memberTokens : (members : List (String × Json)) →
    ∀ {fuel count rest pairs parser}, (memberTokens members).length < fuel →
    members.length ≤ count → rest.head? ≠ some .blockEntry →
    blockPairs (read fuel) (count - members.length) ⟨rest, anchors, handles⟩ =
      some (pairs, parser) →
    blockPairs (read fuel) count ⟨memberTokens members ++ rest, anchors, handles⟩ =
      some (toPairs members ++ pairs, parser)
  | [], fuel, count, rest, pairs, parser, _, _, _, others => by
    rw [memberTokens, toPairs]
    exact others
  | (key, value) :: members, fuel, count + 1, rest, pairs, parser, enough, more, ends, others => by
    rw [memberTokens] at enough ⊢
    simp only [List.length_cons, List.length_append] at enough more
    rw [List.length_cons, Nat.add_sub_add_right] at others
    have ends' : (memberTokens members ++ rest).head? ≠ some .blockEntry := by
      match members with
      | [] => rw [memberTokens]; exact ends
      | (_, _) :: _ => rw [memberTokens]; simp
    rw [toPairs, List.append_assoc]
    exact blockPairs_member (startsValue value).1 (startsValue value).2
      (read_valueTokens value (by omega) ends')
      (blockPairs_memberTokens members (by omega) (by omega) ends others)

theorem read_valueTokens : (value : Json) → ∀ {fuel rest}, (valueTokens value).length < fuel →
    rest.head? ≠ some .blockEntry →
    read fuel ⟨true, true⟩ ⟨valueTokens value ++ rest, anchors, handles⟩ =
      some (toNode value, ⟨rest, anchors, handles⟩)
  | .array (item :: items), fuel + 1, rest, enough, ends => by
    rw [valueTokens_array] at enough ⊢
    have count := length_le_itemTokens (item :: items)
    have more : (item :: items).length < fuel := by
      simp only [List.length_cons] at count ⊢
      omega
    rw [toNode]
    have items : indentlessItems (read fuel) fuel ⟨itemTokens (item :: items) ++ rest, anchors,
        handles⟩ = some (toNodes (item :: items), ⟨rest, anchors, handles⟩) :=
      indentlessItems_itemTokens (item :: items) (by omega) more ends
    rw [itemTokens] at items ⊢
    exact read_indentless rfl items
  | .null, _, _, enough, _ | .bool _, _, _, enough, _ | .number _, _, _, enough, _
  | .string _, _, _, enough, _ | .array [], _, _, enough, _ | .object _, _, _, enough, _ => by
    rw [valueTokens] at enough ⊢
    · exact read_toTokens _ rfl enough
    all_goals simp

end

end ServiceContract.Yaml.Node
