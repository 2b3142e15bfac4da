import ServiceContract.Proofs.Yaml.Allowed
import ServiceContract.Proofs.Yaml.Parser

/-!
# Reading a form back from its YAML text

The text of a list or a record has one token after the other and one node, so a value that its form
keeps is read back from its text (`readAs?_print`), if the names of its fields are plain words.
-/

namespace ServiceContract.Yaml

variable {value : Json}

/-- A list or an object, which alone may stand for a whole document here. -/
def IsContainer : Json → Prop
  | .array _ | .object _ => True
  | _ => False

/-! ## Tokens -/

namespace Lexer

variable {lexer : Lexer} {tokens : List Token} {indent : Int} {outer : List Int} {allowed : Bool}
  {fuel : Nat}

theorem keyStart_closeBlocks (column : Int) (outer : List Int) (lexer : Lexer) :
    (closeBlocks column outer lexer).keyStart = lexer.keyStart := by
  induction outer generalizing lexer with
  | nil => rfl
  | cons above outer ih =>
    rw [closeBlocks]
    split
    · rw [ih]
    · rfl

theorem dropKey?_eq (keyless : lexer.keyStart = none) : lexer.dropKey? = some lexer := by
  obtain ⟨cursor, reversed, indent, outer, keyAllowed, keyStart, outerKeys⟩ := lexer
  dsimp only at keyless
  subst keyless
  rfl

/-- At the end of the text all blocks are closed. -/
theorem Ready.finish (ready : Ready lexer [] 0 tokens indent outer allowed) (inside : indent ≤ 0)
    (enough : 0 < fuel) : ∃ cursor, run? fuel lexer =
      some (closeBlocks (-1) outer (between cursor tokens indent outer allowed)) := by
  obtain ⟨⟨cursor, harrive, hrest, hcolumn⟩, -⟩ := ready
  obtain ⟨fuel, rfl⟩ : ∃ m, fuel = m + 1 := ⟨fuel - 1, by omega⟩
  rw [closeBlocks_of_le outer (by exact inside)] at harrive
  have ended : cursor.next? = none := by rw [Cursor.next?, hrest, List.head?_nil]
  have closed : (between cursor tokens indent outer allowed).unroll (-1) =
      closeBlocks (-1) outer (between cursor tokens indent outer allowed) := unroll_eq rfl _
  have keyless : (closeBlocks (-1) outer (between cursor tokens indent outer allowed)).keyStart =
      none := keyStart_closeBlocks ..
  have next : (between cursor tokens indent outer allowed).cursor.next? = none := ended
  refine ⟨cursor, ?_⟩
  rw [run?_succ, harrive, Option.bind_some, next]
  dsimp only
  rw [closed, dropKey?_eq keyless]

theorem ready_start {cs : List Char} (starts : Starts cs) :
    Ready (.start cs) cs 0 [] (-1) [] true := by
  have text : (Cursor.start cs).rest = spaces 0 ++ cs := rfl
  exact ready_of_spaces text starts (passes_none _)

/-- A document that is a block is closed at the end. -/
theorem Leads.finish {later : Lexer} (leads : Leads lexer later)
    (line : AtLine later [] tokens (0 : Nat) [-1]) (enough : lexer.cursor.rest.length < fuel) :
    ∃ final, run? fuel lexer = some final ∧ final.reversed = .blockEnd :: tokens := by
  obtain ⟨fuel', enough', same⟩ := leads fuel enough
  obtain ⟨k, rest, empty, -, ready⟩ := line
  obtain ⟨hspaces, rfl⟩ := List.append_eq_nil_iff.1 empty.symm
  have first : k = 0 := by simpa using congrArg List.length hspaces
  subst first
  obtain ⟨cursor, hrun⟩ := ready.finish (Int.le_refl 0) (Nat.zero_lt_of_lt enough')
  exact ⟨_, same.trans hrun, rfl⟩

/-- A document that is an empty flow opens no block. -/
theorem Ready.finish_flow {first last : Char} {opening closing : Token}
    (flow : IsFlow first last opening closing)
    (ready : Ready lexer (first :: last :: ['\n']) 0 [] (-1) [] true)
    (enough : lexer.cursor.rest.length < fuel) :
    ∃ final, run? fuel lexer = some final ∧ final.reversed = [closing, opening] := by
  have text : first :: last :: ['\n'] = first :: last :: '\n' :: (spaces 0 ++ []) := rfl
  rw [text] at ready
  obtain ⟨later, leads, ready⟩ := Ready.flow flow ready (by omega) nofun
  obtain ⟨fuel', enough', same⟩ := leads fuel enough
  obtain ⟨cursor, hrun⟩ := ready.finish (by omega) (Nat.zero_lt_of_lt enough')
  exact ⟨_, same.trans hrun, rfl⟩

theorem follows_nil (base : Nat) : Follows base [] :=
  ⟨0, [], rfl, nofun, Nat.zero_le _⟩

/-- The tokens of a document are those of its tree. -/
theorem run?_start (simple : IsSimple value) (container : IsContainer value)
    (enough : (node 0 value).length < fuel) :
    ∃ final, run? fuel (.start (node 0 value)) = some final ∧
      final.reversed = (toTokens value).reverse := by
  have starts := starts_node (n := 0) simple []
  rw [List.append_nil] at starts
  have ready := ready_start starts
  have line := ready.atLine starts
  match value with
  | .array (item :: items) =>
    rw [← laterItems_cons, ← List.append_nil (laterItems 0 _)] at line
    rw [IsSimple] at simple
    obtain ⟨later, leads, line⟩ := AtLine.items (item :: items) simple (by simp)
      (.deeper (by omega)) line (follows_nil 0)
    rw [Node.toTokens_array]
    simpa using leads.finish line enough
  | .object (m :: members) =>
    rw [← laterMembers_cons, ← List.append_nil (laterMembers 0 _)] at line
    rw [IsSimple] at simple
    obtain ⟨later, leads, line⟩ := AtLine.members (m :: members) simple (by simp)
      (.deeper (by omega)) line (follows_nil 0)
    rw [Node.toTokens_object]
    simpa using leads.finish line enough
  | .array [] =>
    rw [node] at ready enough ⊢
    rw [toTokens]
    exact ready.finish_flow .sequence enough
  | .object [] =>
    rw [node] at ready enough ⊢
    rw [toTokens]
    exact ready.finish_flow .mapping enough

end Lexer

/-- A text that starts with a token is lexed as it is. -/
theorem Token.ofText?_of_starts {text : String} (starts : Starts text.toList) :
    Token.ofText? text =
      if text.toList.all isAllowed then
        (Lexer.run? (text.toList.length + 1) (.start text.toList)).map fun lexer =>
          lexer.reversed.reverse
      else none := by
  unfold Token.ofText?
  split
  · rename_i marked
    exact absurd rfl (starts '\uFEFF' (by rw [marked]; rfl)).2.2
  · rfl

theorem Token.ofText?_print (simple : IsSimple value) (container : IsContainer value) :
    Token.ofText? (print value) = some (toTokens value) := by
  have starts := Lexer.starts_node (n := 0) simple []
  rw [List.append_nil] at starts
  have text : (print value).toList = node 0 value := by
    match value with
    | .array _ | .object _ =>
      rw [print, String.toList_ofList]
      simp
  have allowed : (node 0 value).all isAllowed = true :=
    List.all_eq_true.2 (allowed_node value simple 0)
  obtain ⟨final, hrun, hfinal⟩ := Lexer.run?_start simple container (Nat.lt_succ_self _)
  rw [Token.ofText?_of_starts (text ▸ starts), text, if_pos allowed, hrun, Option.map_some, hfinal,
    List.reverse_reverse]

/-! ## Nodes -/

/-- A document with one node, whose tokens start with it. -/
theorem Node.ofText?_of_read {text : String} {token : Token} {rest : List Token} {node : Node}
    (written : Token.ofText? text = some (token :: rest)) (opens : Node.opensNode token = true)
    (read : Node.read ((token :: rest).length + 1) ⟨true, false⟩
      ⟨token :: rest, [], defaultHandles⟩ = some (node, ⟨[], [], defaultHandles⟩)) :
    Node.ofText? text = some node := by
  have noDirective : directives? false [] (token :: rest) = some ([], token :: rest) := by
    cases token <;> first | rfl | cases opens
  have document : document? (token :: rest) = some (node, ⟨[], [], defaultHandles⟩) := by
    unfold document?
    rw [noDirective]
    split
    · rename_i none
      cases none
    · rename_i start
      simp only [Option.some.injEq, Prod.mk.injEq, List.cons.injEq] at start
      rw [start.2.1] at opens
      cases opens
    · rename_i plain
      obtain ⟨rfl, rfl⟩ := Prod.mk.inj (Option.some.inj plain)
      rw [if_neg (Nat.lt_irrefl _)]
      exact read
  unfold Node.ofText?
  rw [written]
  simp [document]

/-- The text of a document is read as the node of its tree. -/
theorem Node.ofText?_print (simple : IsSimple value) (container : IsContainer value) :
    Node.ofText? (print value) = some (toNode value) := by
  obtain ⟨nonempty, opens⟩ := Node.opensNode_toTokens value
  obtain ⟨token, tokens, htokens⟩ := List.exists_cons_of_ne_nil nonempty
  have read : Node.read ((toTokens value).length + 1) ⟨true, false⟩
      ⟨toTokens value, [], defaultHandles⟩ = some (toNode value, ⟨[], [], defaultHandles⟩) := by
    rw [← List.append_nil (toTokens value)]
    exact Node.read_toTokens value rfl (by simp)
  have written := Token.ofText?_print simple container
  rw [htokens] at read written opens
  exact Node.ofText?_of_read written (opens token rfl) read

end ServiceContract.Yaml

namespace ServiceContract

open Yaml

/-! ## Forms -/

mutual

/-- A form whose fields are named by plain words. -/
def Form.HasWords : {α : Type} → Form α → Prop
  | _, .list item => item.HasWords
  | _, .option item => item.HasWords
  | _, .record _ _ fields _ _ => fields.HaveWords
  | _, _ => True

/-- Fields that are named by plain words. -/
def Fields.HaveWords : {β σ : Type} → Fields β σ → Prop
  | _, _, .nil => True
  | _, _, .cons name form _ rest => IsWord name ∧ form.HasWords ∧ rest.HaveWords

end

theorem itemsSimple_of_forall {items : List Json} (h : ∀ item ∈ items, IsSimple item) :
    ItemsSimple items := by
  induction items with
  | nil => rw [ItemsSimple]; trivial
  | cons item items ih =>
    obtain ⟨first, others⟩ := List.forall_mem_cons.1 h
    rw [ItemsSimple]
    exact ⟨first, ih others⟩

theorem membersSimple_of_forall {members : Members}
    (h : ∀ m ∈ members, IsWord m.1 ∧ IsSimple m.2) : MembersSimple members := by
  induction members with
  | nil => rw [MembersSimple]; trivial
  | cons m members ih =>
    obtain ⟨first, others⟩ := List.forall_mem_cons.1 h
    rw [MembersSimple]
    exact ⟨first.1, first.2, ih others⟩

mutual

theorem Form.isSimple_toJson : {α : Type} → (form : Form α) → form.HasWords → ∀ a,
    IsSimple (form.toJson a)
  | _, .text, _, s | _, .flag, _, s | _, .count, _, s | _, .choice _ _, _, s => by
    rw [Form.toJson]
    trivial
  | _, .list item, words, xs => by
    rw [Form.HasWords] at words
    rw [Form.toJson, IsSimple]
    refine itemsSimple_of_forall fun tree htree => ?_
    obtain ⟨x, -, rfl⟩ := List.mem_map.1 htree
    exact item.isSimple_toJson words x
  | _, .option item, words, none => by
    rw [Form.toJson]
    trivial
  | _, .option item, words, some a => by
    rw [Form.HasWords] at words
    rw [Form.toJson]
    exact item.isSimple_toJson words a
  | _, .record _ _ fields _ parts, words, a => by
    rw [Form.HasWords] at words
    rw [Form.toJson, IsSimple]
    refine membersSimple_of_forall fun m hm => ?_
    exact fields.isSimple_toMembers words (parts a) m (List.mem_filter.1 hm).1

theorem Fields.isSimple_toMembers : {β σ : Type} → (fields : Fields β σ) → fields.HaveWords →
    ∀ b, ∀ m ∈ fields.toMembers b, IsWord m.1 ∧ IsSimple m.2
  | _, _, .nil, _, _, m, hm => by
    rw [Fields.toMembers] at hm
    cases hm
  | _, _, .cons name form _ rest, words, (a, b), m, hm => by
    rw [Fields.HaveWords] at words
    rw [Fields.toMembers] at hm
    rcases List.mem_cons.1 hm with rfl | hm
    · exact ⟨words.1, form.isSimple_toJson words.2.1 a⟩
    · exact rest.isSimple_toMembers words.2.2 b m hm

end

/-- A list or a record that its form keeps is read back from its YAML text. -/
theorem Yaml.readAs?_print {α : Type} {form : Form α} (words : form.HasWords) {a : α}
    (container : IsContainer (form.toJson a)) (keeps : form.Keeps a) :
    Yaml.readAs? form (Yaml.print (form.toJson a)) = some a := by
  have own := Node.ofText?_print (form.isSimple_toJson words a) container
  simp [Yaml.readAs?, own, form.ofNode?_toNode a keeps]

end ServiceContract
