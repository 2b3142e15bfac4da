import ServiceContract.Proofs.Form
import ServiceContract.Proofs.Json.Tokens

/-!
# Reading a form back from its JSON text

A value that its form keeps is read back from its text, in any layout that puts white space alone
between the tokens (`readAs_render`). The induction is on the form. Its hypothesis for a part says
that the part is read from its own text, whatever stands before and behind it; a list and a record
go over their parts and know after each what has been read (`reads_items`, `reads_members`).
-/

namespace ServiceContract

open Json Cursor

namespace Json

/-- A layout that puts white space alone between the tokens. -/
structure Spacing.IsWhite (spacing : Spacing) : Prop where
  lineBreak (depth : Nat) : IsBlank (spacing.lineBreak depth)
  afterColon : IsBlank spacing.afterColon

theorem Spacing.isWhite_compact : Spacing.compact.IsWhite :=
  ⟨fun _ => isBlank_nil, isBlank_nil⟩

theorem Spacing.isWhite_indented : Spacing.indented.IsWhite where
  lineBreak depth := by
    intro c hc
    simp only [indented, List.mem_cons, List.mem_replicate] at hc
    rcases hc with rfl | ⟨-, rfl⟩ <;> decide
  afterColon := by
    intro c hc
    simp only [indented, List.mem_singleton] at hc
    subst hc
    decide

variable {spacing : Spacing} {depth : Nat}

theorem length_le_renderItems (spacing : Spacing) (depth : Nat) (items : List Json) :
    items.length ≤ (renderItems spacing depth items).length := by
  induction items with
  | nil => exact Nat.le_refl _
  | cons item items ih =>
    simp only [renderItems, List.length_cons, List.length_append]
    omega

theorem length_le_renderMembers (spacing : Spacing) (depth : Nat) (members : Members) :
    members.length ≤ (renderMembers spacing depth members).length := by
  induction members with
  | nil => exact Nat.le_refl _
  | cons member members ih =>
    simp only [renderMembers, List.length_cons, List.length_append]
    omega

theorem length_render_le_of_mem (spacing : Spacing) (depth : Nat) {item : Json} {items : List Json}
    (h : item ∈ items) :
    (item.render spacing depth).length ≤ (renderItems spacing depth items).length := by
  induction items with
  | nil => cases h
  | cons first items ih =>
    simp only [renderItems, List.length_cons, List.length_append]
    rcases List.mem_cons.1 h with rfl | h
    · omega
    · have := ih h
      omega

theorem length_renderMember_le_of_mem (spacing : Spacing) (depth : Nat)
    {member : String × Json} {members : Members} (h : member ∈ members) :
    (member.2.render spacing depth).length ≤ (renderMembers spacing depth members).length := by
  induction members with
  | nil => cases h
  | cons first members ih =>
    simp only [renderMembers, List.length_cons, List.length_append]
    rcases List.mem_cons.1 h with rfl | h
    · omega
    · have := ih h
      omega

theorem endsNumber_close {c : Char} {rest : List Char} (h : c = ',' ∨ c = ']' ∨ c = '\x7d') :
    EndsNumber (c :: rest) := by
  intro d hd
  obtain rfl : c = d := by simpa using hd
  rcases h with rfl | rfl | rfl <;> decide

theorem endsNumber_renderItems {items : List Json} {rest : List Char} (follows : EndsNumber rest) :
    EndsNumber (renderItems spacing depth items ++ rest) := by
  cases items with
  | nil => exact follows
  | cons item items => exact endsNumber_close (.inl rfl)

theorem endsNumber_renderMembers {members : Members} {rest : List Char}
    (follows : EndsNumber rest) : EndsNumber (renderMembers spacing depth members ++ rest) := by
  cases members with
  | nil => exact follows
  | cons member members => exact endsNumber_close (.inl rfl)

end Json

variable {α β σ : Type} {spacing : Spacing} {depth : Nat}

/-- The text of a value starts like one, and only that of nothing starts with an `n`. -/
theorem Form.exists_start (spacing : Spacing) (depth : Nat) : {α : Type} → (form : Form α) →
    (a : α) → ∃ c cs, (form.toJson a).render spacing depth = c :: cs ∧ IsStart c ∧
      (form.IsSolid → c ≠ 'n')
  | _, .text, s => ⟨_, _, by rw [toJson, render]; rfl, by decide, fun _ => by decide⟩
  | _, .flag, true => ⟨_, _, by rw [toJson, render], by decide, fun _ => by decide⟩
  | _, .flag, false => ⟨_, _, by rw [toJson, render], by decide, fun _ => by decide⟩
  | _, .count, n => by
    obtain ⟨d, ds, hds, digit⟩ := exists_digit_toDigits n
    refine ⟨d, ds, by rw [toJson, render_ofNat, hds], isStart_digit digit, fun _ => ?_⟩
    rintro rfl
    simp at digit
  | _, .choice _ spell, a => ⟨_, _, by rw [toJson, render]; rfl, by decide, fun _ => by decide⟩
  | _, .list item, [] =>
    ⟨_, _, by rw [toJson, List.map_nil, render], by decide, fun _ => by decide⟩
  | _, .list item, x :: xs =>
    ⟨_, _, by rw [toJson, List.map_cons, render]; rfl, by decide, fun _ => by decide⟩
  | _, .option item, none => ⟨_, _, by rw [toJson, render], by decide, False.elim⟩
  | _, .option item, some a => by
    obtain ⟨c, cs, hc, start, -⟩ := item.exists_start spacing depth a
    exact ⟨c, cs, hc, start, False.elim⟩
  | _, .record _ _ fields _ parts, a => by
    rw [toJson]
    cases Members.present (fields.toMembers (parts a)) with
    | nil => exact ⟨_, _, by rw [render], by decide, fun _ => by decide⟩
    | cons member members => exact ⟨_, _, by rw [render]; rfl, by decide, fun _ => by decide⟩

/-- A reader finds `a` where a value stands, whatever white space is before it and whatever follows
it. -/
def FindsAt (spacing : Spacing) (depth : Nat) (read : Cursor → Read α) (value : Json) (a : α) :
    Prop :=
  ∀ blank rest, IsBlank blank → EndsNumber rest →
    Reads read (blank ++ (value.render spacing depth ++ rest)) a rest

/-! ## Lists -/

section Lists

variable {item : Cursor → Read α} {write : α → Json} {fuel : Nat} {first : Bool} {read : List α}
  {before middle after rest blank : List Char} {x : α} {xs : List α}

theorem reads_items_end (next : Reads (nextItem first) before false after) :
    Reads (items item (fuel + 1) first read) before read.reverse after := by
  intro cursor h
  obtain ⟨cursor', hnext, hrest⟩ := next cursor h
  refine ⟨cursor', ?_, hrest⟩
  rw [items, hnext]

theorem reads_items_cons (next : Reads (nextItem first) before true middle)
    (here : Reads item middle x after)
    (later : Reads (items item fuel false (x :: read)) after xs rest) :
    Reads (items item (fuel + 1) first read) before xs rest := by
  intro cursor h
  obtain ⟨cursor₁, hnext, hmiddle⟩ := next cursor h
  obtain ⟨cursor₂, hitem, hafter⟩ := here cursor₁ hmiddle
  obtain ⟨cursor₃, hlater, hrest⟩ := later cursor₂ hafter
  refine ⟨cursor₃, ?_, hrest⟩
  rw [items, hnext]
  simp only [hitem, hlater]

/-- The items behind the first one are read one after the other. -/
theorem reads_items_later (white : spacing.IsWhite)
    (start : ∀ x, ∃ c cs, (write x).render spacing depth = c :: cs ∧ IsStart c) (xs : List α)
    (each : ∀ x ∈ xs, FindsAt spacing depth item (write x) x) (enough : xs.length < fuel)
    (read : List α) (last : IsBlank blank) (rest : List Char) :
    Reads (items item fuel false read)
      (renderItems spacing depth (xs.map write) ++ (blank ++ ']' :: rest)) (read.reverse ++ xs)
      (']' :: rest) := by
  induction xs generalizing fuel read with
  | nil =>
    obtain ⟨fuel, rfl⟩ : ∃ n, fuel = n + 1 := ⟨fuel - 1, by simp at enough; omega⟩
    rw [List.append_nil]
    exact reads_items_end (reads_nextItem_end false last)
  | cons x xs ih =>
    obtain ⟨fuel, rfl⟩ : ∃ n, fuel = n + 1 := ⟨fuel - 1, by simp at enough; omega⟩
    obtain ⟨hx, hxs⟩ := List.forall_mem_cons.1 each
    have enough' : xs.length < fuel := by simpa using enough
    have later := ih hxs enough' (x :: read)
    have follows : EndsNumber
        (renderItems spacing depth (xs.map write) ++ (blank ++ ']' :: rest)) :=
      endsNumber_renderItems (.of_isBlank last (endsNumber_close (.inr (.inl rfl))))
    have here := hx [] _ isBlank_nil follows
    obtain ⟨c, cs, hc, hstart⟩ := start x
    rw [List.map_cons, renderItems]
    rw [List.reverse_cons, List.append_assoc, List.singleton_append] at later
    simp only [hc, List.append_assoc, List.cons_append, List.nil_append] at here ⊢
    exact reads_items_cons (reads_nextItem_later (white.lineBreak depth) hstart) here later

/-- A list is read behind its bracket. -/
theorem reads_items (white : spacing.IsWhite)
    (start : ∀ x, ∃ c cs, (write x).render spacing (depth + 1) = c :: cs ∧ IsStart c)
    (xs : List α) (each : ∀ x ∈ xs, FindsAt spacing (depth + 1) item (write x) x)
    (enough : xs.length < fuel) (rest : List Char) :
    ∃ body, Json.render spacing depth (.array (xs.map write)) ++ rest = '[' :: body ∧
      Reads (items item fuel true []) body xs (']' :: rest) := by
  obtain ⟨fuel, rfl⟩ : ∃ n, fuel = n + 1 := ⟨fuel - 1, by omega⟩
  cases xs with
  | nil =>
    refine ⟨']' :: rest, by rw [List.map_nil, render]; rfl, ?_⟩
    exact reads_items_end (reads_nextItem_end true isBlank_nil)
  | cons x xs =>
    obtain ⟨hx, hxs⟩ := List.forall_mem_cons.1 each
    have enough' : xs.length < fuel := by simpa using enough
    have later := reads_items_later white start xs hxs enough' [x] (white.lineBreak depth) rest
    have follows : EndsNumber (renderItems spacing (depth + 1) (xs.map write) ++
        (spacing.lineBreak depth ++ ']' :: rest)) :=
      endsNumber_renderItems
        (.of_isBlank (white.lineBreak depth) (endsNumber_close (.inr (.inl rfl))))
    have here := hx [] _ isBlank_nil follows
    obtain ⟨c, cs, hc, hstart⟩ := start x
    rw [List.map_cons, render]
    simp only [hc, List.append_assoc, List.cons_append, List.nil_append] at here ⊢
    refine ⟨_, rfl, ?_⟩
    exact reads_items_cons (reads_nextItem_first (white.lineBreak (depth + 1)) hstart) here later

end Lists

/-! ## Records -/

section Records

variable {fields : Fields β σ} {b : β} {reader : FormReader} {fuel : Nat} {first : Bool}
  {seen : List String} {before middle after rest blank : List Char} {slots : σ}

/-- A reader fills the slot of each field from the text of its member. -/
def FillsAt (spacing : Spacing) (depth : Nat) (reader : FormReader) (fields : Fields β σ) (b : β)
    (member : String × Json) : Prop :=
  ∀ seen, FindsAt spacing depth (fields.readField reader (fields.slots seen b) member.1) member.2
    (fields.slots (member.1 :: seen) b)

theorem reads_members_end (next : Reads (nextKey first) before false after) :
    Reads (fields.readMembers reader (fuel + 1) first slots) before slots after := by
  intro cursor h
  obtain ⟨cursor', hnext, hrest⟩ := next cursor h
  refine ⟨cursor', ?_, hrest⟩
  simp [Fields.readMembers, hnext, bind, Except.bind, pure, Except.pure]

theorem reads_members_cons {key : String} {value after' : List Char} {filled filled' : σ}
    (next : Reads (nextKey first) before true (Json.quoted key ++ ':' :: value))
    (unread : fields.filled? slots key = some false)
    (here : Reads (fields.readField reader slots key) value filled after)
    (later : Reads (fields.readMembers reader fuel false filled) after filled' after') :
    Reads (fields.readMembers reader (fuel + 1) first slots) before filled' after' := by
  intro cursor h
  obtain ⟨cursor₁, hnext, hkey⟩ := next cursor h
  rw [quoted_append] at hkey
  obtain ⟨cursor₂, hquoted, hcolon⟩ := reads_quoted key _ _ (rest_advance hkey)
  obtain ⟨cursor₃, hmove, hvalue⟩ := moves_colon value cursor₂ hcolon
  obtain ⟨cursor₄, hfield, hafter⟩ := here cursor₃ hvalue
  obtain ⟨cursor₅, hlater, hrest⟩ := later cursor₄ hafter
  refine ⟨cursor₅, ?_, hrest⟩
  simp [Fields.readMembers, hnext, hquoted, unread, hmove, hfield, hlater, bind, Except.bind]

/-- A member with a name that is new fills its slot. -/
theorem reads_member (white : spacing.IsWhite) {key : String} {value : Json} {after' : List Char}
    {filled : σ} (member : FillsAt spacing depth reader fields b (key, value))
    (known : key ∈ fields.names) (fresh : key ∉ seen) (follows : EndsNumber after)
    (next : Reads (nextKey first) before true (Json.quoted key ++
      ':' :: (spacing.afterColon ++ (value.render spacing depth ++ after))))
    (later : Reads (fields.readMembers reader fuel false (fields.slots (key :: seen) b)) after
      filled after') :
    Reads (fields.readMembers reader (fuel + 1) first (fields.slots seen b)) before filled
      after' := by
  have unread : fields.filled? (fields.slots seen b) key = some false := by
    rw [Fields.filled?_slots fields b known, decide_eq_false fresh]
  exact reads_members_cons next unread (member seen spacing.afterColon _ white.afterColon follows)
    later

/-- The members behind the first one fill their slots one after the other. -/
theorem reads_members_later (white : spacing.IsWhite) (members : Members)
    (each : ∀ m ∈ members, FillsAt spacing depth reader fields b m)
    (known : ∀ m ∈ members, m.1 ∈ fields.names) (distinct : members.keys.Nodup)
    (fresh : ∀ key ∈ members.keys, key ∉ seen) (enough : members.length < fuel)
    (last : IsBlank blank) (rest : List Char) :
    Reads (fields.readMembers reader fuel false (fields.slots seen b))
      (renderMembers spacing depth members ++ (blank ++ '\x7d' :: rest))
      (fields.slots (members.keys.reverse ++ seen) b) ('\x7d' :: rest) := by
  induction members generalizing fuel seen with
  | nil =>
    obtain ⟨fuel, rfl⟩ : ∃ n, fuel = n + 1 := ⟨fuel - 1, by simp at enough; omega⟩
    exact reads_members_end (reads_nextKey_end false last)
  | cons member members ih =>
    obtain ⟨fuel, rfl⟩ : ∃ n, fuel = n + 1 := ⟨fuel - 1, by simp at enough; omega⟩
    obtain ⟨key, value⟩ := member
    obtain ⟨hmember, hmembers⟩ := List.forall_mem_cons.1 each
    obtain ⟨hkey, hkeys⟩ := List.forall_mem_cons.1 known
    obtain ⟨hother, hdistinct⟩ := List.nodup_cons.1 distinct
    obtain ⟨hfresh, hfreshes⟩ := List.forall_mem_cons.1 fresh
    have enough' : members.length < fuel := by simpa using enough
    have unseen : ∀ k ∈ Members.keys members, k ∉ key :: seen := by
      intro k hk hseen
      rcases List.mem_cons.1 hseen with rfl | hseen
      · exact hother hk
      · exact hfreshes k hk hseen
    have later := ih hmembers hkeys hdistinct unseen enough'
    have follows : EndsNumber
        (renderMembers spacing depth members ++ (blank ++ '\x7d' :: rest)) :=
      endsNumber_renderMembers (.of_isBlank last (endsNumber_close (.inr (.inr rfl))))
    have read : (Members.keys ((key, value) :: members)).reverse ++ seen =
        (Members.keys members).reverse ++ key :: seen := by
      simp [Members.keys]
    rw [renderMembers, read]
    simp only [List.append_assoc, List.cons_append]
    exact reads_member white hmember hkey hfresh follows
      (reads_nextKey_later (white.lineBreak depth) key _) later

/-- The members of an object fill the slots of a record. -/
theorem reads_members (white : spacing.IsWhite) (members : Members)
    (each : ∀ m ∈ members, FillsAt spacing (depth + 1) reader fields b m)
    (known : ∀ m ∈ members, m.1 ∈ fields.names) (distinct : members.keys.Nodup)
    (enough : members.length < fuel) (rest : List Char) :
    ∃ body, Json.render spacing depth (.object members) ++ rest = '\x7b' :: body ∧
      Reads (fields.readMembers reader fuel true fields.empty) body
        (fields.slots members.keys.reverse b) ('\x7d' :: rest) := by
  obtain ⟨fuel, rfl⟩ : ∃ n, fuel = n + 1 := ⟨fuel - 1, by omega⟩
  rw [← fields.slots_nil b]
  cases members with
  | nil =>
    refine ⟨'\x7d' :: rest, by rw [render]; rfl, ?_⟩
    exact reads_members_end (reads_nextKey_end true isBlank_nil)
  | cons member members =>
    obtain ⟨key, value⟩ := member
    obtain ⟨hmember, hmembers⟩ := List.forall_mem_cons.1 each
    obtain ⟨hkey, hkeys⟩ := List.forall_mem_cons.1 known
    obtain ⟨hother, hdistinct⟩ := List.nodup_cons.1 distinct
    have enough' : members.length < fuel := by simpa using enough
    have unseen : ∀ k ∈ Members.keys members, k ∉ [key] := by
      intro k hk hseen
      obtain rfl := List.mem_singleton.1 hseen
      exact hother hk
    have later := reads_members_later white members hmembers hkeys hdistinct unseen enough'
      (white.lineBreak depth) rest
    have follows : EndsNumber (renderMembers spacing (depth + 1) members ++
        (spacing.lineBreak depth ++ '\x7d' :: rest)) :=
      endsNumber_renderMembers
        (.of_isBlank (white.lineBreak depth) (endsNumber_close (.inr (.inr rfl))))
    have read : (Members.keys ((key, value) :: members)).reverse =
        (Members.keys members).reverse ++ [key] := by
      simp [Members.keys]
    rw [render, read]
    simp only [List.append_assoc, List.cons_append, List.nil_append]
    refine ⟨_, rfl, ?_⟩
    exact reads_member white hmember hkey (by simp) follows
      (reads_nextKey_first (white.lineBreak (depth + 1)) key _) later

end Records

/-! ## Forms -/

theorem length_render_item (spacing : Spacing) (depth : Nat) {items : List Json} {item : Json}
    (h : item ∈ items) :
    (item.render spacing (depth + 1)).length + 2 ≤
      (Json.render spacing depth (.array items)).length := by
  cases items with
  | nil => cases h
  | cons first items =>
    simp only [render, List.length_cons, List.length_append, List.length_nil]
    rcases List.mem_cons.1 h with rfl | h
    · omega
    · have := length_render_le_of_mem spacing (depth + 1) h
      omega

theorem length_render_array (spacing : Spacing) (depth : Nat) (items : List Json) :
    items.length < (Json.render spacing depth (.array items)).length := by
  cases items with
  | nil => rw [render]; decide
  | cons first items =>
    have := length_le_renderItems spacing (depth + 1) items
    simp only [render, List.length_cons, List.length_append, List.length_nil]
    omega

theorem length_render_member (spacing : Spacing) (depth : Nat) {members : Members}
    {member : String × Json} (h : member ∈ members) :
    (member.2.render spacing (depth + 1)).length + 2 ≤
      (Json.render spacing depth (.object members)).length := by
  cases members with
  | nil => cases h
  | cons first members =>
    simp only [render, List.length_cons, List.length_append, List.length_nil]
    rcases List.mem_cons.1 h with rfl | h
    · omega
    · have := length_renderMember_le_of_mem spacing (depth + 1) h
      omega

theorem length_render_object (spacing : Spacing) (depth : Nat) (members : Members) :
    members.length < (Json.render spacing depth (.object members)).length := by
  cases members with
  | nil => rw [render]; decide
  | cons first members =>
    have := length_le_renderMembers spacing (depth + 1) members
    simp only [render, List.length_cons, List.length_append, List.length_nil]
    omega

/-- How much more fuel than characters a value of a form may take. -/
def Form.spare : Form α → Nat
  | .option _ => 2
  | _ => 1

theorem Form.spare_le (form : Form α) : form.spare ≤ 2 := by
  cases form <;> simp [spare]

theorem Form.IsSolid.spare_eq {form : Form α} (solid : form.IsSolid) : form.spare = 1 := by
  cases form with
  | option => exact solid.elim
  | _ => rfl

theorem Form.one_le_spare (form : Form α) : 1 ≤ form.spare := by
  cases form <;> simp [spare]

section Parts

variable {fuel : Nat}

theorem findsAt_list (white : spacing.IsWhite) (item : Form α) (xs : List α)
    (each : ∀ x ∈ xs,
      FindsAt spacing (depth + 1) (fun cursor => cursor.form fuel item) (item.toJson x) x)
    (enough : xs.length < fuel) :
    FindsAt spacing depth (fun cursor => cursor.form (fuel + 1) (.list item))
      (.array (xs.map fun x => item.toJson x)) xs := by
  intro blank rest hblank _ cursor h
  have start (x : α) := item.exists_start spacing (depth + 1) x
  obtain ⟨body, hbody, hitems⟩ := reads_items white
    (fun x => by obtain ⟨c, cs, hc, hstart, -⟩ := start x; exact ⟨c, cs, hc, hstart⟩) xs each enough
    rest
  rw [hbody] at h
  have hopen := rest_skipSpace h hblank (by decide)
  obtain ⟨cursor₁, hread, hclose⟩ := hitems _ (rest_advance hopen)
  obtain ⟨cursor₂, hend, hrest⟩ := moves_endList rest cursor₁ hclose
  refine ⟨cursor₂, ?_, hrest⟩
  simp [Cursor.form, next?_eq hopen, hread, hend, bind, Except.bind, pure, Except.pure]

theorem findsAt_none (item : Form α) :
    FindsAt spacing depth (fun cursor => cursor.form (fuel + 1) (.option item)) .null none := by
  intro blank rest hblank _ cursor h
  rw [render] at h
  have hletter := rest_skipSpace h hblank (by decide)
  obtain ⟨cursor', hread, hrest⟩ := reads_word () ['u', 'l', 'l'] rest _ (rest_advance hletter)
  refine ⟨cursor', ?_, hrest⟩
  simp [Cursor.form, next?_eq hletter, hread, bind, Except.bind, pure, Except.pure]

theorem findsAt_some {item : Form α} (solid : item.IsSolid) (a : α)
    (here : FindsAt spacing depth (fun cursor => cursor.form fuel item) (item.toJson a) a) :
    FindsAt spacing depth (fun cursor => cursor.form (fuel + 1) (.option item)) (item.toJson a)
      (some a) := by
  intro blank rest hblank follows cursor h
  obtain ⟨c, cs, hc, start, other⟩ := item.exists_start spacing depth a
  have hvalue : cursor.skipSpace.rest = (item.toJson a).render spacing depth ++ rest := by
    rw [hc] at h ⊢
    exact rest_skipSpace h hblank start.1
  obtain ⟨cursor', hread, hrest⟩ := here [] rest isBlank_nil follows _ hvalue
  refine ⟨cursor', ?_, hrest⟩
  rw [hc] at hvalue
  simp [Cursor.form, next?_eq hvalue, other solid, hread, bind, Except.bind, pure, Except.pure]

theorem findsAt_record (white : spacing.IsWhite) (name : String) (mayEndEarly : Bool)
    {fields : Fields β σ} {build : β → α} {parts : α → β} {b : β} {a : α} (same : build b = a)
    (keep : fields.Keep b) (distinct : fields.names.Nodup)
    (each : ∀ member ∈ Members.present (fields.toMembers b),
      FillsAt spacing (depth + 1) (fun form cursor => cursor.form fuel form) fields b member)
    (enough : (Members.present (fields.toMembers b)).length < fuel) :
    FindsAt spacing depth
      (fun cursor => cursor.form (fuel + 1) (.record name mayEndEarly fields build parts))
      (.object (Members.present (fields.toMembers b))) a := by
  intro blank rest hblank _ cursor h
  obtain ⟨body, hbody, hmembers⟩ :=
    reads_members white _ each (fields.mem_names_of_present b)
      ((fields.keys_present_sublist b).nodup distinct) enough rest
  rw [hbody] at h
  have hopen := rest_skipSpace h hblank (by decide)
  obtain ⟨cursor₁, hread, hclose⟩ := hmembers _ (rest_advance hopen)
  obtain ⟨cursor₂, hend, hrest⟩ := moves_endObject rest cursor₁ hclose
  have complete : fields.complete
      (fields.slots (Members.present (fields.toMembers b)).keys.reverse b) = .ok b := by
    refine fields.complete_slots b keep fun member hm => ?_
    rw [List.mem_reverse]
    exact List.mem_map_of_mem hm
  refine ⟨cursor₂, ?_, hrest⟩
  simp [Cursor.form, Cursor.record, next?_eq hopen, hread, complete, hend, same, bind, Except.bind,
    pure, Except.pure, Except.map]

/-- A record is refused where the value of its first member is. -/
theorem record_refused {name key : String} {mayEndEarly : Bool} {fields : Fields β σ}
    {build : β → α} {parts : α → β} {blank value : List Char} {fault : Fault} {cursor : Cursor}
    (white : IsBlank blank)
    (h : cursor.rest = '\x7b' :: (blank ++ (Json.quoted key ++ ':' :: value)))
    (known : fields.filled? fields.empty key = some false)
    (refused : ∀ cursor : Cursor, cursor.rest = value → ∃ position,
      fields.readField (fun form cursor => cursor.form (fuel + 1) form) fields.empty key cursor =
        .error ⟨fault, position⟩) :
    ∃ position, cursor.form (fuel + 2) (.record name mayEndEarly fields build parts) =
      .error ⟨fault, position⟩ := by
  have hopen := rest_skipSpace_cons h (by decide)
  obtain ⟨cursor₁, hnext, hkey⟩ := reads_nextKey_first white key _ _ (rest_advance hopen)
  rw [quoted_append] at hkey
  obtain ⟨cursor₂, hquoted, hcolon⟩ := reads_quoted key _ _ (rest_advance hkey)
  obtain ⟨cursor₃, hmove, hvalue⟩ := moves_colon value cursor₂ hcolon
  obtain ⟨position, hfield⟩ := refused cursor₃ hvalue
  refine ⟨position, ?_⟩
  simp [Cursor.form, Cursor.record, next?_eq hopen, Fields.readMembers, hnext, hquoted, known,
    hmove, hfield, bind, Except.bind, Except.map]

end Parts

mutual

/-- A value is read from its text. -/
theorem Form.findsAt (white : spacing.IsWhite) : {α : Type} → (form : Form α) → (a : α) →
    form.Keeps a → ∀ depth fuel, ((form.toJson a).render spacing depth).length + form.spare ≤ fuel →
    FindsAt spacing depth (fun cursor => cursor.form fuel form) (form.toJson a) a
  | _, form, a, keeps, depth, 0, enough => by
    have := form.one_le_spare
    omega
  | _, .text, s, _, depth, fuel + 1, _ => by
    intro blank rest hblank _
    rw [Form.toJson, render]
    exact reads_text "a string" s hblank rest
  | _, .flag, b, _, depth, fuel + 1, _ => by
    intro blank rest hblank _
    rw [Form.toJson]
    exact reads_flag b hblank rest
  | _, .count, n, fits, depth, fuel + 1, _ => by
    intro blank rest hblank follows
    rw [Form.Keeps] at fits
    rw [Form.toJson]
    exact reads_count fits hblank follows
  | _, .choice variants spell, a, known, depth, fuel + 1, _ => by
    intro blank rest hblank _
    rw [Form.Keeps] at known
    rw [Form.toJson, render]
    exact reads_choice known hblank rest
  | _, .list item, xs, keeps, depth, fuel + 1, enough => by
    rw [Form.Keeps] at keeps
    rw [Form.toJson] at enough ⊢
    have room : (Form.list item).spare = 1 := rfl
    refine findsAt_list white item xs (fun x hx => ?_) ?_
    · have short := length_render_item spacing depth
        (List.mem_map_of_mem (f := fun x => item.toJson x) hx)
      have := item.spare_le
      exact item.findsAt white x (keeps x hx) (depth + 1) fuel (by omega)
    · have := length_render_array spacing depth (xs.map fun x => item.toJson x)
      rw [List.length_map] at this
      omega
  | _, .option item, none, _, depth, fuel + 1, _ => by
    rw [Form.toJson]
    exact findsAt_none item
  | _, .option item, some a, keeps, depth, fuel + 1, enough => by
    rw [Form.Keeps] at keeps
    rw [Form.toJson] at enough ⊢
    obtain ⟨solid, keeps⟩ := keeps a rfl
    have room : (Form.option item).spare = 2 := rfl
    have := solid.spare_eq
    exact findsAt_some solid a (item.findsAt white a keeps depth fuel (by omega))
  | _, .record name mayEndEarly fields build parts, a, keeps, depth, fuel + 1, enough => by
    rw [Form.Keeps] at keeps
    rw [Form.toJson] at enough ⊢
    obtain ⟨same, distinct, keep⟩ := keeps
    have room : (Form.record name mayEndEarly fields build parts).spare = 1 := rfl
    refine findsAt_record white name mayEndEarly same keep distinct (fun member hm => ?_) ?_
    · have short := length_render_member spacing depth hm
      exact fields.fillsAt white (parts a) keep distinct (depth + 1) fuel member
        (List.mem_filter.1 hm).1 (by omega)
    · have := length_render_object spacing depth (Members.present (fields.toMembers (parts a)))
      omega

/-- The slot of a field is filled from the text of its member. -/
theorem Fields.fillsAt (white : spacing.IsWhite) : {β σ : Type} → (fields : Fields β σ) → (b : β) →
    fields.Keep b → fields.names.Nodup → ∀ depth fuel, ∀ member ∈ fields.toMembers b,
    (member.2.render spacing depth).length + 2 ≤ fuel →
    FillsAt spacing depth (fun form cursor => cursor.form fuel form) fields b member
  | _, _, .nil, _, _, _, _, _, member, h, _ => by
    rw [Fields.toMembers] at h
    cases h
  | _, _, .cons name form fallback rest, (a, b), keep, distinct, depth, fuel, member, h,
      enough => by
    rw [Fields.Keep] at keep
    obtain ⟨keeps, -, keep⟩ := keep
    obtain ⟨absent, distinct⟩ := List.nodup_cons.1 distinct
    rw [Fields.toMembers] at h
    intro seen blank text hblank follows cursor hcursor
    rcases List.mem_cons.1 h with rfl | h
    · have := form.spare_le
      have enough : ((form.toJson a).render spacing depth).length + 2 ≤ fuel := enough
      obtain ⟨cursor', hread, hrest⟩ := form.findsAt white a keeps depth fuel (by omega) blank text
        hblank follows cursor hcursor
      have others : rest.slots (name :: seen) b = rest.slots seen b :=
        rest.slots_cons_of_not_mem b absent
      refine ⟨cursor', ?_, hrest⟩
      simp only [Fields.slots, Fields.readField, if_pos, hread, others, List.mem_cons_self]
      rfl
    · have hname : member.1 ∈ rest.names := by
        rw [← rest.keys_toMembers b]
        exact List.mem_map_of_mem h
      have different : name ≠ member.1 := by
        rintro rfl
        exact absent hname
      obtain ⟨cursor', hread, hrest⟩ := rest.fillsAt white b keep distinct depth fuel member h
        enough seen blank text hblank follows cursor hcursor
      refine ⟨cursor', ?_, hrest⟩
      simp only [Fields.slots, Fields.readField, hread, List.mem_cons, different, false_or]
      rfl

end

theorem endsNumber_of_isBlank {blank : List Char} (white : IsBlank blank) : EndsNumber blank := by
  have follows : EndsNumber [] := by
    intro c hc
    cases hc
  simpa using follows.of_isBlank white

/-- A value that its form keeps is read back from its text, with white space behind it. -/
theorem Json.readAs_render_append (white : spacing.IsWhite) {form : Form α} (solid : form.IsSolid)
    {a : α} (keeps : form.Keeps a) {blank : List Char} (behind : IsBlank blank) :
    Json.readAs form (String.ofList ((form.toJson a).render spacing 0 ++ blank)) = .ok a := by
  obtain ⟨text, htext⟩ : ∃ text, text = (form.toJson a).render spacing 0 ++ blank := ⟨_, rfl⟩
  have start : (Cursor.start (String.ofList text)).rest = text := by
    rw [Cursor.start, String.toList_ofList]
  have enough : ((form.toJson a).render spacing 0).length + form.spare ≤ text.length + 1 := by
    have room := solid.spare_eq
    rw [htext, List.length_append]
    omega
  obtain ⟨cursor, hread, hrest⟩ := form.findsAt white a keeps 0 _ enough [] blank isBlank_nil
    (endsNumber_of_isBlank behind) _ (start.trans htext)
  have ended : cursor.endText = .ok () := endText_eq_ok (by rwa [hrest])
  simp only [readAs, ← htext, start, bind, Except.bind, pure, Except.pure]
  simp only [hread, ended]

/-- A value that its form keeps is read back from its text. -/
theorem Json.readAs_render (white : spacing.IsWhite) {form : Form α} (solid : form.IsSolid) {a : α}
    (keeps : form.Keeps a) :
    Json.readAs form (String.ofList ((form.toJson a).render spacing 0)) = .ok a := by
  rw [← List.append_nil ((form.toJson a).render spacing 0)]
  exact readAs_render_append white solid keeps isBlank_nil

end ServiceContract
