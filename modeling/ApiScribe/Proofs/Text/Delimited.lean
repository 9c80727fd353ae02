import ApiScribe.Proofs.Text.Literal

set_option autoImplicit false

/-! # Texts that say where they end

A way to write values is self-delimiting if a written value can be told from whatever follows it:
the text determines both the value and the rest. Literals are, and so are lists of self-delimiting
items up to a stop character (`SelfDelimiting.list`). Words are not; they end where a character
stands that no word contains (`word_append_inj`), and so do the items of a list with commas
(`intercalate_append_inj`). -/

namespace ApiScribe.Text

variable {α : Type}

/-- The text of a valid value and the text behind it determine the value and the text behind it. -/
def SelfDelimiting (valid : α → Prop) (write : α → List Char) : Prop :=
  ∀ ⦃a b : α⦄, valid a → valid b → ∀ ⦃s t : List Char⦄, write a ++ s = write b ++ t → a = b ∧ s = t

/-! ## Literals -/

/-- Literals are self-delimiting, since the reader stops at their end and gives the text back. -/
theorem selfDelimiting_quoted :
    SelfDelimiting (fun _ : String => True) fun text => (quoted text).toList := by
  intro a b _ _ s t h
  have hread : ∀ (text : String) (rest : List Char),
      Json.readText [] 0 [] (((quoted text).toList ++ rest).drop 1) =
        .ok (.ofString text, rest) := by
    intro text rest
    have := readText_flatMap_quotedChar [] [] text.toList rest
    simpa [toList_quoted, LooseText.ofString] using this
  have h : (quoted a).toList ++ s = (quoted b).toList ++ t := h
  have heq := hread a s
  rw [h, hread b t] at heq
  obtain ⟨htext, hrest⟩ := Prod.mk.inj (Except.ok.inj heq)
  exact ⟨LooseText.ofString_injective htext.symm, hrest.symm⟩

/-! ## Words -/

/-- A word ends where the first character stands that words do not contain. -/
theorem word_append_inj {isWordChar : Char → Bool} {u v : List Char} {c d : Char} {s t : List Char}
    (hu : ∀ x ∈ u, isWordChar x = true) (hv : ∀ x ∈ v, isWordChar x = true)
    (hc : isWordChar c = false) (hd : isWordChar d = false) (h : u ++ c :: s = v ++ d :: t) :
    u = v ∧ c :: s = d :: t := by
  have htake := congrArg (List.takeWhile isWordChar) h
  rw [List.takeWhile_append_of_pos hu, List.takeWhile_append_of_pos hv,
    List.takeWhile_cons_of_neg (by simp [hc]), List.takeWhile_cons_of_neg (by simp [hd]),
    List.append_nil, List.append_nil] at htake
  subst htake
  exact ⟨rfl, List.append_cancel_left h⟩

/-! ## Lists -/

/-- Self-delimiting items one after the other, up to a character that starts no item. -/
theorem SelfDelimiting.list {valid : α → Prop} {write : α → List Char} {stop : Char}
    (hwrite : SelfDelimiting valid write)
    (hstart : ∀ a, valid a → ∃ c rest, write a = c :: rest ∧ c ≠ stop) :
    SelfDelimiting (fun l : List α => ∀ a ∈ l, valid a) fun l => l.flatMap write ++ [stop] := by
  intro l m hl hm s t h
  induction l generalizing m with
  | nil =>
    cases m with
    | nil => simpa using h
    | cons b m =>
      obtain ⟨c, rest, hb, hc⟩ := hstart b (hm b (List.mem_cons_self ..))
      simp only [List.flatMap_nil, List.flatMap_cons, hb, List.cons_append, List.nil_append,
        List.cons.injEq] at h
      exact absurd h.1.symm hc
  | cons a l ih =>
    have ha := hl a (List.mem_cons_self ..)
    cases m with
    | nil =>
      obtain ⟨c, rest, ha', hc⟩ := hstart a ha
      simp only [List.flatMap_nil, List.flatMap_cons, ha', List.cons_append, List.nil_append,
        List.cons.injEq] at h
      exact absurd h.1 hc
    | cons b m =>
      simp only [List.flatMap_cons, List.append_assoc] at h
      obtain ⟨rfl, hrest⟩ := hwrite ha (hm b (List.mem_cons_self ..)) h
      obtain ⟨rfl, hst⟩ := ih (fun x hx => hl x (List.mem_cons_of_mem _ hx))
        (fun x hx => hm x (List.mem_cons_of_mem _ hx)) (by simpa using hrest)
      exact ⟨rfl, hst⟩

/-- Self-delimiting items one after the other, up to the end of the text. -/
theorem SelfDelimiting.flatMap_inj {valid : α → Prop} {write : α → List Char}
    (hwrite : SelfDelimiting valid write) (hne : ∀ a, valid a → write a ≠ []) {l m : List α}
    (hl : ∀ a ∈ l, valid a) (hm : ∀ a ∈ m, valid a) (h : l.flatMap write = m.flatMap write) :
    l = m := by
  induction l generalizing m with
  | nil =>
    cases m with
    | nil => rfl
    | cons b m =>
      have hb := hne b (hm b (List.mem_cons_self ..))
      exact absurd (List.append_eq_nil_iff.1 h.symm).1 hb
  | cons a l ih =>
    have ha := hl a (List.mem_cons_self ..)
    cases m with
    | nil => exact absurd (List.append_eq_nil_iff.1 h).1 (hne a ha)
    | cons b m =>
      obtain ⟨rfl, hrest⟩ := hwrite ha (hm b (List.mem_cons_self ..)) h
      rw [ih (fun x hx => hl x (List.mem_cons_of_mem _ hx))
        (fun x hx => hm x (List.mem_cons_of_mem _ hx)) hrest]

/-! ## Lists with commas -/

/-- An item of a list with commas that ends at `stop`. -/
structure IsItem (stop : Char) (item : List Char) : Prop where
  ne_nil : item ≠ []
  comma : ',' ∉ item
  stop : stop ∉ item

/-- The characters that an item can contain. -/
def isItemChar (stop c : Char) : Bool := c ≠ ',' && c ≠ stop

theorem IsItem.isItemChar {stop : Char} {item : List Char} (h : IsItem stop item) :
    ∀ c ∈ item, isItemChar stop c = true := by
  intro c hc
  have hcomma : c ≠ ',' := fun he => h.comma (he ▸ hc)
  have hstop : c ≠ stop := fun he => h.stop (he ▸ hc)
  simp [Text.isItemChar, hcomma, hstop]

/-- The items behind the first one, each after a comma, and the rest from the stop character on. -/
def furtherItems (stop : Char) (items : List (List Char)) (rest : List Char) : List Char :=
  items.flatMap (fun item => ',' :: ' ' :: item) ++ stop :: rest

theorem furtherItems_cons (stop : Char) (item : List Char) (items : List (List Char))
    (rest : List Char) :
    furtherItems stop (item :: items) rest =
      ',' :: ' ' :: (item ++ furtherItems stop items rest) := by
  simp [furtherItems]

theorem intercalate_cons_append (stop : Char) (item : List Char) (items : List (List Char))
    (rest : List Char) :
    [',', ' '].intercalate (item :: items) ++ stop :: rest =
      item ++ furtherItems stop items rest := by
  induction items generalizing item with
  | nil => simp [furtherItems]
  | cons next items ih =>
    rw [List.intercalate_cons_cons, List.append_assoc, ih, furtherItems_cons]
    simp

/-- Behind an item stands a character that no item contains. -/
theorem furtherItems_eq_cons (stop : Char) (items : List (List Char)) (rest : List Char) :
    ∃ c more, furtherItems stop items rest = c :: more ∧ isItemChar stop c = false := by
  cases items with
  | nil => exact ⟨stop, rest, rfl, by simp [isItemChar]⟩
  | cons item items => exact ⟨',', _, furtherItems_cons .., by simp [isItemChar]⟩

/-- An item and the items behind it are told apart. -/
theorem item_append_inj {stop : Char} {u v : List Char} {l m : List (List Char)} {s t : List Char}
    (hu : IsItem stop u) (hv : IsItem stop v)
    (h : u ++ furtherItems stop l s = v ++ furtherItems stop m t) :
    u = v ∧ furtherItems stop l s = furtherItems stop m t := by
  obtain ⟨c, x, hx, hc⟩ := furtherItems_eq_cons stop l s
  obtain ⟨d, y, hy, hd⟩ := furtherItems_eq_cons stop m t
  rw [hx, hy] at h ⊢
  exact word_append_inj hu.isItemChar hv.isItemChar hc hd h

theorem furtherItems_inj {stop : Char} (hstop : stop ≠ ',') {l m : List (List Char)}
    {s t : List Char} (hl : ∀ item ∈ l, IsItem stop item) (hm : ∀ item ∈ m, IsItem stop item)
    (h : furtherItems stop l s = furtherItems stop m t) : l = m ∧ s = t := by
  induction l generalizing m with
  | nil =>
    cases m with
    | nil => exact ⟨rfl, (List.cons.inj h).2⟩
    | cons v m =>
      rw [furtherItems_cons] at h
      exact absurd (List.cons.inj h).1 hstop
  | cons u l ih =>
    cases m with
    | nil =>
      rw [furtherItems_cons] at h
      exact absurd (List.cons.inj h).1.symm hstop
    | cons v m =>
      rw [furtherItems_cons, furtherItems_cons] at h
      have h := (List.cons.inj (List.cons.inj h).2).2
      obtain ⟨rfl, hrest⟩ :=
        item_append_inj (hl u (List.mem_cons_self ..)) (hm v (List.mem_cons_self ..)) h
      obtain ⟨rfl, hst⟩ := ih (fun x hx => hl x (List.mem_cons_of_mem _ hx))
        (fun x hx => hm x (List.mem_cons_of_mem _ hx)) hrest
      exact ⟨rfl, hst⟩

/-- A list with commas up to a stop character determines its items and what follows it. -/
theorem intercalate_append_inj {stop : Char} (hstop : stop ≠ ',') {l m : List (List Char)}
    {s t : List Char} (hl : ∀ item ∈ l, IsItem stop item) (hm : ∀ item ∈ m, IsItem stop item)
    (h : [',', ' '].intercalate l ++ stop :: s = [',', ' '].intercalate m ++ stop :: t) :
    l = m ∧ s = t := by
  -- an empty list and a list with an item differ in whether an item starts with the stop character
  have key : ∀ {v : List Char} {m : List (List Char)} {s t : List Char}, IsItem stop v →
      stop :: s ≠ v ++ furtherItems stop m t := by
    intro v m s t hv heq
    obtain ⟨c, v', rfl⟩ := List.exists_cons_of_ne_nil hv.ne_nil
    obtain ⟨rfl, -⟩ := List.cons.inj heq
    exact hv.stop (List.mem_cons_self ..)
  cases l with
  | nil =>
    cases m with
    | nil => exact ⟨rfl, (List.cons.inj h).2⟩
    | cons v m =>
      rw [intercalate_cons_append] at h
      exact absurd h (key (hm v (List.mem_cons_self ..)))
  | cons u l =>
    cases m with
    | nil =>
      rw [intercalate_cons_append] at h
      exact absurd h.symm (key (hl u (List.mem_cons_self ..)))
    | cons v m =>
      rw [intercalate_cons_append, intercalate_cons_append] at h
      obtain ⟨rfl, hrest⟩ :=
        item_append_inj (hl u (List.mem_cons_self ..)) (hm v (List.mem_cons_self ..)) h
      obtain ⟨rfl, hst⟩ := furtherItems_inj hstop (fun x hx => hl x (List.mem_cons_of_mem _ hx))
        (fun x hx => hm x (List.mem_cons_of_mem _ hx)) hrest
      exact ⟨rfl, hst⟩

end ApiScribe.Text
