import ApiScribe.Proofs.Code.WellFormed
import ApiScribe.Proofs.Text.Delimited

set_option autoImplicit false

/-! # No two modules with one text

The text of a well-formed module determines the module. The text is taken apart from the left: every
part is a fixed text, a word that ends at a character that is no part of it, a literal, or a list up
to a stop character, and each of these determines what it was written from and where it ends. What
is left out of the text, such as an empty query, shows in the character that stands in its place. -/

namespace ApiScribe.Code

open Text (IsIdentifier isIdentifierChar SelfDelimiting selfDelimiting_quoted word_append_inj IsItem
  intercalate_append_inj quoted)

/-! ## Lists of arguments -/

theorem isItem_of_isIdentifier {stop : Char} (hstop : isIdentifierChar stop = false) {text : String}
    (h : IsIdentifier text) : IsItem stop text.toList :=
  ⟨h.toList_ne_nil, h.not_mem (by decide), h.not_mem hstop⟩

theorem isItem_parameterText {argument : Argument} (h : argument.WellFormed) :
    IsItem ')' (parameterText argument).toList := by
  have hcomma : ',' ∉ argument.type.toList := fun hmem => h.type.plain _ hmem (by decide)
  have hclose : ')' ∉ argument.type.toList := fun hmem => h.type.plain _ hmem (by decide)
  have hcomma' : ',' ∉ argument.name.toList := h.name.not_mem (by decide)
  have hclose' : ')' ∉ argument.name.toList := h.name.not_mem (by decide)
  constructor <;> simp [parameterText, *]

theorem parameterText_inj {a b : Argument} (ha : a.WellFormed) (hb : b.WellFormed)
    (h : (parameterText a).toList = (parameterText b).toList) : a = b := by
  have h : a.name.toList ++ ':' :: ' ' :: a.type.toList =
      b.name.toList ++ ':' :: ' ' :: b.type.toList := by
    simpa [parameterText] using h
  obtain ⟨hname, h⟩ := word_append_inj ha.name.2 hb.name.2 (by decide) (by decide) h
  have htype := (List.cons.inj (List.cons.inj h).2).2
  cases a
  cases b
  rw [String.toList_inj] at hname htype
  simp_all

/-- Texts of valid values that determine the values determine lists of them. -/
theorem map_inj_of_valid {α β : Type} {valid : α → Prop} {f : α → β}
    (hf : ∀ a b, valid a → valid b → f a = f b → a = b) {l m : List α} (hl : ∀ a ∈ l, valid a)
    (hm : ∀ a ∈ m, valid a) (h : l.map f = m.map f) : l = m := by
  induction l generalizing m with
  | nil => exact (List.map_eq_nil_iff.1 h.symm).symm
  | cons a l ih =>
    cases m with
    | nil => simp at h
    | cons b m =>
      obtain ⟨hhead, htail⟩ := List.cons.inj h
      rw [hf a b (hl a (List.mem_cons_self ..)) (hm b (List.mem_cons_self ..)) hhead,
        ih (fun x hx => hl x (List.mem_cons_of_mem _ hx))
          (fun x hx => hm x (List.mem_cons_of_mem _ hx)) htail]

/-- What stands in the parentheses of a method. -/
def parameterItems (arguments : List Argument) : List (List Char) :=
  arguments.map fun argument => (parameterText argument).toList

theorem parameterItems_append_inj {l m : List Argument} (hl : ∀ a ∈ l, a.WellFormed)
    (hm : ∀ a ∈ m, a.WellFormed) {s t : List Char}
    (h : [',', ' '].intercalate (parameterItems l) ++ ')' :: s =
      [',', ' '].intercalate (parameterItems m) ++ ')' :: t) : l = m ∧ s = t := by
  have hitems : ∀ {l : List Argument}, (∀ a ∈ l, a.WellFormed) →
      ∀ item ∈ parameterItems l, IsItem ')' item := by
    intro l hl item hitem
    obtain ⟨argument, hmem, rfl⟩ := List.mem_map.1 hitem
    exact isItem_parameterText (hl argument hmem)
  obtain ⟨hlist, hrest⟩ := intercalate_append_inj (by decide) (hitems hl) (hitems hm) h
  exact ⟨map_inj_of_valid (fun _ _ => parameterText_inj) hl hm hlist, hrest⟩

/-! ## Objects of arguments -/

/-- The entries of the object that passes arguments on. -/
def argumentItems (arguments : List Argument) : List (List Char) :=
  arguments.map fun argument => (objectEntry (argument.name, argument.name)).toList

theorem toList_argumentObject (arguments : List Argument) :
    (argumentObject arguments).toList =
      '\x7b' :: ([',', ' '].intercalate (argumentItems arguments) ++ ['\x7d']) := by
  simp [argumentObject, objectLiteral, argumentItems, Function.comp_def]

/-- Of arguments in which only the number is open, the object tells the number. -/
theorem argumentObject_append_inj {l m : List Argument} (hl : ∀ a ∈ l, a.WellFormed)
    (hm : ∀ a ∈ m, a.WellFormed) {s t : List Char}
    (h : (argumentObject l).toList ++ s = (argumentObject m).toList ++ t) :
    l.length = m.length ∧ s = t := by
  have hitems : ∀ {l : List Argument}, (∀ a ∈ l, a.WellFormed) →
      ∀ item ∈ argumentItems l, IsItem '\x7d' item := by
    intro l hl item hitem
    obtain ⟨argument, hmem, rfl⟩ := List.mem_map.1 hitem
    have hname := (hl argument hmem).name
    have hcomma : ',' ∉ argument.name.toList := hname.not_mem (by decide)
    have hclose : '\x7d' ∉ argument.name.toList := hname.not_mem (by decide)
    constructor <;> simp [objectEntry, hname.toList_quoted, hcomma, hclose]
  simp only [toList_argumentObject, List.cons_append, List.append_assoc, List.nil_append,
    List.cons.injEq, true_and] at h
  obtain ⟨hlist, hrest⟩ := intercalate_append_inj (by decide) (hitems hl) (hitems hm) h
  have hlength := congrArg List.length hlist
  simp only [argumentItems, List.length_map] at hlength
  exact ⟨hlength, hrest⟩

/-- The clauses of a method tell where its query ends and its body begins. -/
theorem Method.clauses_append_inj {a b : Method} (ha : a.WellFormed) (hb : b.WellFormed)
    (harguments : a.arguments = b.arguments) {s t : List Char}
    (h : a.clauses.toList ++ '\x7d' :: s = b.clauses.toList ++ '\x7d' :: t) :
    a.params = b.params ∧ a.data = b.data ∧ s = t := by
  unfold arguments at harguments
  by_cases hp : a.params = [] <;> by_cases hq : b.params = []
  · -- both without a query
    have hdata : a.data = b.data := by simpa [hp, hq] using harguments
    have hclauses : a.clauses = b.clauses := by rw [clauses, clauses, hp, hq, hdata]
    rw [hclauses] at h
    exact ⟨hp.trans hq.symm, hdata, (List.cons.inj (List.append_cancel_left h)).2⟩
  · -- a body or the end against a query
    by_cases hd : a.data = [] <;> simp [clauses, hp, hq, hd] at h
  · by_cases hd : b.data = [] <;> simp [clauses, hp, hq, hd] at h
  · -- the objects of the two queries are as long as each other
    simp only [clauses, List.isEmpty_iff, hp, hq, if_false, String.toList_append,
      List.append_assoc] at h
    have hparams := argumentObject_append_inj
      (fun x hx => ha.arguments x (List.mem_append_left _ hx))
      (fun x hx => hb.arguments x (List.mem_append_left _ hx)) (List.append_cancel_left h)
    obtain ⟨hparams', hdata⟩ := List.append_inj harguments hparams.1
    have hrest := hparams.2
    rw [hdata] at hrest
    exact ⟨hparams', hdata, (List.cons.inj (List.append_cancel_left hrest)).2⟩

/-! ## Members -/

/-- What stands in front of the name of a member. -/
def lead (isPublic isMethod : Bool) : List Char :=
  ("    " ++ visibility isPublic ++ if isMethod then "async " else "get ").toList

theorem lead_append_inj {p q k l : Bool} {s t : List Char} (h : lead p k ++ s = lead q l ++ t) :
    p = q ∧ k = l ∧ s = t := by
  cases p <;> cases q <;> cases k <;> cases l <;> simp [lead, visibility] at h ⊢ <;> exact h

theorem exists_lead_eq_cons (p k : Bool) : ∃ rest, lead p k = ' ' :: rest :=
  ⟨(lead p k).drop 1, by cases p <;> cases k <;> decide⟩

/-- A method from its name on. -/
def Method.tail (method : Method) : List Char :=
  method.name.toList ++ '(' :: ([',', ' '].intercalate (parameterItems method.arguments) ++
    ')' :: (": Promise<any> \x7b\n        return axios(\x7b\"url\": ".toList ++
      ((quoted method.url).toList ++ (", \"method\": ".toList ++
        ((quoted method.verb).toList ++ (method.clauses.toList ++
          '\x7d' :: ");\n    \x7d\n".toList))))))

/-- A getter from its name on. -/
def Getter.tail (getter : Getter) : List Char :=
  getter.name.toList ++ '(' :: (") \x7b\n        return new ".toList ++
    (getter.target.toList ++ '(' :: ");\n    \x7d\n".toList))

theorem Method.tail_append_inj {a b : Method} (ha : a.WellFormed) (hb : b.WellFormed)
    (hpublic : a.isPublic = b.isPublic) {s t : List Char} (h : a.tail ++ s = b.tail ++ t) :
    a = b ∧ s = t := by
  simp only [tail, List.append_assoc, List.cons_append] at h
  -- from the left: the name, all arguments, the address, the verb, and what is passed on
  obtain ⟨hname, h⟩ := word_append_inj ha.name.2 hb.name.2 (by decide) (by decide) h
  obtain ⟨harguments, h⟩ := parameterItems_append_inj ha.arguments hb.arguments (List.cons.inj h).2
  obtain ⟨hurl, h⟩ := selfDelimiting_quoted trivial trivial (List.append_cancel_left h)
  obtain ⟨hverb, h⟩ := selfDelimiting_quoted trivial trivial (List.append_cancel_left h)
  obtain ⟨hparams, hdata, h⟩ := clauses_append_inj ha hb harguments h
  rw [String.toList_inj] at hname
  refine ⟨?_, List.append_cancel_left h⟩
  cases a
  cases b
  simp_all

theorem Getter.tail_append_inj {a b : Getter} (ha : a.WellFormed) (hb : b.WellFormed)
    (hpublic : a.isPublic = b.isPublic) {s t : List Char} (h : a.tail ++ s = b.tail ++ t) :
    a = b ∧ s = t := by
  simp only [tail, List.append_assoc, List.cons_append] at h
  obtain ⟨hname, h⟩ := word_append_inj ha.name.2 hb.name.2 (by decide) (by decide) h
  obtain ⟨htarget, h⟩ := word_append_inj ha.target.2 hb.target.2 (by decide) (by decide)
    (List.append_cancel_left (List.cons.inj h).2)
  rw [String.toList_inj] at hname htarget
  refine ⟨?_, List.append_cancel_left (List.cons.inj h).2⟩
  cases a
  cases b
  simp_all

/-- A member of a class. -/
abbrev Member := Method ⊕ Getter

namespace Member

/-- Whether the parts of a member are well-formed. -/
def WellFormed : Member → Prop
  | .inl method => method.WellFormed
  | .inr getter => getter.WellFormed

/-- The block of a member. -/
def text : Member → List Char
  | .inl method => (memberBlock method.render).toList
  | .inr getter => (memberBlock getter.render).toList

/-- Whether the word for a public member stands in front. -/
def isPublic : Member → Bool
  | .inl method => method.isPublic
  | .inr getter => getter.isPublic

/-- A member from its name on. -/
def tail : Member → List Char
  | .inl method => method.tail
  | .inr getter => getter.tail

theorem WellFormed.text_eq {member : Member} (h : member.WellFormed) :
    member.text = lead member.isPublic member.isLeft ++ member.tail := by
  rcases member with method | getter
  · have h : method.WellFormed := h
    simp [text, h.memberBlock, Method.request_eq, Method.opening, lead, tail, isPublic, Method.tail,
      parameterItems, Function.comp_def]
  · have h : getter.WellFormed := h
    simp [text, h.memberBlock, Getter.opening, lead, tail, isPublic, Getter.tail]

theorem selfDelimiting_text : SelfDelimiting WellFormed text := by
  intro a b ha hb s t h
  have h : a.text ++ s = b.text ++ t := h
  rw [ha.text_eq, hb.text_eq, List.append_assoc, List.append_assoc] at h
  obtain ⟨hpublic, hkind, htail⟩ := lead_append_inj h
  rcases a with a | a <;> rcases b with b | b
  · obtain ⟨rfl, hrest⟩ := Method.tail_append_inj ha hb hpublic htail
    exact ⟨rfl, hrest⟩
  · cases hkind
  · cases hkind
  · obtain ⟨rfl, hrest⟩ := Getter.tail_append_inj ha hb hpublic htail
    exact ⟨rfl, hrest⟩

/-- A block starts with the space of its indentation. -/
theorem WellFormed.exists_text_eq_cons {member : Member} (h : member.WellFormed) :
    ∃ rest, member.text = ' ' :: rest := by
  obtain ⟨rest, hrest⟩ := exists_lead_eq_cons member.isPublic member.isLeft
  rw [h.text_eq, hrest]
  exact ⟨_, rfl⟩

end Member

/-! ## Classes -/

theorem map_inl_append_map_inr_inj {α β : Type} {l l' : List α} {m m' : List β}
    (h : l.map Sum.inl ++ m.map Sum.inr = l'.map Sum.inl ++ m'.map Sum.inr) : l = l' ∧ m = m' := by
  induction l generalizing l' with
  | nil =>
    cases l' with
    | nil => exact ⟨rfl, (List.map_inj_right fun _ _ => Sum.inr.inj).1 h⟩
    | cons a l' => cases m <;> simp at h
  | cons a l ih =>
    cases l' with
    | nil => cases m' <;> simp at h
    | cons b l' =>
      obtain ⟨hhead, htail⟩ := List.cons.inj h
      obtain ⟨rfl, rfl⟩ := ih htail
      exact ⟨by rw [Sum.inl.inj hhead], rfl⟩

/-- The members of a class: the methods, then the getters. -/
def ClassDecl.memberList (decl : ClassDecl) : List Member :=
  decl.methods.map .inl ++ decl.getters.map .inr

theorem ClassDecl.WellFormed.memberList {decl : ClassDecl} (h : decl.WellFormed) :
    ∀ member ∈ decl.memberList, member.WellFormed := by
  intro member hmem
  rcases List.mem_append.1 hmem with hmem | hmem
  · obtain ⟨method, hmethod, rfl⟩ := List.mem_map.1 hmem
    exact h.methods method hmethod
  · obtain ⟨getter, hgetter, rfl⟩ := List.mem_map.1 hmem
    exact h.getters getter hgetter

theorem ClassDecl.toList_render (decl : ClassDecl) :
    decl.render.toList = (if decl.exported then "export class " else "class ").toList ++
      (decl.name.toList ++ ' ' :: '\x7b' :: '\n' ::
        (decl.memberList.flatMap Member.text ++ ['\x7d'] ++ ['\n'])) := by
  have hmembers : (String.join (decl.members.map memberBlock)).toList =
      decl.memberList.flatMap Member.text := by
    rw [String.toList_join, members, ClassDecl.memberList]
    simp [List.flatMap_map, Member.text]
  rw [render, header, String.toList_append, String.toList_append, hmembers]
  cases decl.exported <;> simp

theorem classLead_append_inj {p q : Bool} {s t : List Char}
    (h : (if p then "export class " else "class ").toList ++ s =
      (if q then "export class " else "class ").toList ++ t) : p = q ∧ s = t := by
  cases p <;> cases q <;> simp at h ⊢ <;> exact h

theorem selfDelimiting_classDecl :
    SelfDelimiting ClassDecl.WellFormed fun decl => decl.render.toList := by
  intro a b ha hb s t h
  have h : a.render.toList ++ s = b.render.toList ++ t := h
  rw [a.toList_render, b.toList_render] at h
  simp only [List.append_assoc, List.cons_append] at h
  obtain ⟨hexported, h⟩ := classLead_append_inj h
  obtain ⟨hname, h⟩ := word_append_inj ha.name.2 hb.name.2 (by decide) (by decide) h
  have hstart : ∀ member : Member, member.WellFormed →
      ∃ c rest, member.text = c :: rest ∧ c ≠ '\x7d' := by
    intro member hmember
    obtain ⟨rest, hrest⟩ := hmember.exists_text_eq_cons
    exact ⟨' ', rest, hrest, by decide⟩
  obtain ⟨hmembers, hrest⟩ := (Member.selfDelimiting_text.list hstart) ha.memberList hb.memberList
    (s := '\n' :: s) (t := '\n' :: t) (by simpa using h)
  obtain ⟨hmethods, hgetters⟩ := map_inl_append_map_inr_inj hmembers
  rw [String.toList_inj] at hname
  refine ⟨?_, (List.cons.inj hrest).2⟩
  cases a
  cases b
  simp_all

/-! ## Imports -/

/-- What stands behind the default binding. -/
def Import.tail (decl : Import) : List Char :=
  (if decl.members.isEmpty then
    if decl.defaultBinding.isNone then [] else " from ".toList
  else
    (if decl.defaultBinding.isNone then [] else [',', ' ']) ++
      '\x7b' :: ([',', ' '].intercalate (decl.members.map String.toList) ++
        '\x7d' :: " from ".toList)) ++
    ((quoted decl.path).toList ++ [';', '\n'])

theorem Import.WellFormed.toList_render {decl : Import} (h : decl.WellFormed) :
    decl.render.toList =
      "import ".toList ++ ((decl.defaultBinding.getD "").toList ++ decl.tail) := by
  cases hd : decl.defaultBinding with
  | none => cases hm : decl.members <;> simp [render, bindings, tail, hd, hm]
  | some binding =>
    have hne : binding ≠ "" := (h.defaultBinding binding hd).1
    cases hm : decl.members <;> simp [render, bindings, tail, hd, hm, hne]

/-- What stands behind the default binding starts with a character that no binding has. -/
theorem Import.exists_tail_eq_cons (decl : Import) :
    ∃ c rest, decl.tail = c :: rest ∧ isIdentifierChar c = false := by
  cases hd : decl.defaultBinding <;> cases hm : decl.members
  · exact ⟨'"', _, by simp [tail, hd, hm, Text.toList_quoted]; rfl, by decide⟩
  · exact ⟨'\x7b', _, by simp [tail, hd, hm]; rfl, by decide⟩
  · exact ⟨' ', _, by simp [tail, hd, hm]; rfl, by decide⟩
  · exact ⟨',', _, by simp [tail, hd, hm]; rfl, by decide⟩

theorem Import.tail_append_inj {a b : Import} (ha : a.WellFormed) (hb : b.WellFormed)
    (hdefault : a.defaultBinding.isNone = b.defaultBinding.isNone) {s t : List Char}
    (h : a.tail ++ s = b.tail ++ t) : a.members = b.members ∧ a.path = b.path ∧ s = t := by
  have hpath : ∀ {s t : List Char}, (quoted a.path).toList ++ ';' :: '\n' :: s =
      (quoted b.path).toList ++ ';' :: '\n' :: t → a.path = b.path ∧ s = t := by
    intro s t h
    obtain ⟨hpath, hrest⟩ := selfDelimiting_quoted trivial trivial h
    exact ⟨hpath, (List.cons.inj (List.cons.inj hrest).2).2⟩
  have hitems : ∀ {decl : Import}, decl.WellFormed →
      ∀ item ∈ decl.members.map String.toList, IsItem '\x7d' item := by
    intro decl hdecl item hitem
    obtain ⟨member, hmem, rfl⟩ := List.mem_map.1 hitem
    exact isItem_of_isIdentifier (by decide) (hdecl.members member hmem)
  unfold tail at h
  rw [hdefault] at h
  by_cases hm : a.members = [] <;> by_cases hn : b.members = []
  · simp only [hm, hn, List.isEmpty_nil, if_true, List.append_assoc] at h
    exact ⟨hm.trans hn.symm, hpath (List.append_cancel_left h)⟩
  · -- the path or the word in front of it against the members
    cases hd : b.defaultBinding <;> simp [hm, hn, hd, Text.toList_quoted] at h
  · cases hd : b.defaultBinding <;> simp [hm, hn, hd, Text.toList_quoted] at h
  · simp only [List.isEmpty_iff, hm, hn, if_false, List.append_assoc, List.cons_append] at h
    obtain ⟨hmembers, h⟩ := intercalate_append_inj (by decide) (hitems ha) (hitems hb)
      (List.cons.inj (List.append_cancel_left h)).2
    exact ⟨(List.map_inj_right fun _ _ => String.toList_inj.1).1 hmembers,
      hpath (List.append_cancel_left h)⟩

theorem selfDelimiting_import :
    SelfDelimiting Import.WellFormed fun decl => decl.render.toList := by
  intro a b ha hb s t h
  have h : a.render.toList ++ s = b.render.toList ++ t := h
  rw [ha.toList_render, hb.toList_render] at h
  simp only [List.append_assoc] at h
  have h := List.append_cancel_left h
  have hword : ∀ {decl : Import}, decl.WellFormed →
      ∀ c ∈ (decl.defaultBinding.getD "").toList, isIdentifierChar c = true := by
    intro decl hdecl
    cases hd : decl.defaultBinding with
    | none => simp
    | some binding => exact (hdecl.defaultBinding binding hd).2
  -- without a default binding the word in front of the tail is empty
  obtain ⟨c, x, hx, hc⟩ := a.exists_tail_eq_cons
  obtain ⟨d, y, hy, hd⟩ := b.exists_tail_eq_cons
  rw [hx, hy, List.cons_append, List.cons_append] at h
  obtain ⟨hbinding, h⟩ := word_append_inj (hword ha) (hword hb) hc hd h
  rw [← List.cons_append, ← List.cons_append, ← hx, ← hy] at h
  rw [String.toList_inj] at hbinding
  have hdefault : a.defaultBinding = b.defaultBinding := by
    cases hda : a.defaultBinding <;> cases hdb : b.defaultBinding <;>
      simp only [hda, hdb, Option.getD_none, Option.getD_some] at hbinding
    · rfl
    · exact absurd hbinding.symm (hb.defaultBinding _ hdb).1
    · exact absurd hbinding (ha.defaultBinding _ hda).1
    · rw [hbinding]
  obtain ⟨hmembers, hpath, hrest⟩ := Import.tail_append_inj ha hb (by rw [hdefault]) h
  refine ⟨?_, hrest⟩
  cases a
  cases b
  simp_all

/-! ## Modules -/

/-- A part of a module. -/
abbrev Part := Import ⊕ ClassDecl

namespace Part

/-- Whether a part is well-formed. -/
def WellFormed : Part → Prop
  | .inl decl => decl.WellFormed
  | .inr decl => decl.WellFormed

/-- The text of a part. -/
def text : Part → List Char
  | .inl decl => decl.render.toList
  | .inr decl => decl.render.toList

theorem text_import_ne_text_class {decl : Import} (hdecl : decl.WellFormed) (other : ClassDecl)
    (s t : List Char) : decl.render.toList ++ s ≠ other.render.toList ++ t := by
  intro h
  rw [hdecl.toList_render, other.toList_render] at h
  cases hexported : other.exported <;> simp [hexported] at h

theorem selfDelimiting_text : SelfDelimiting WellFormed text := by
  intro a b ha hb s t h
  rcases a with a | a <;> rcases b with b | b
  · obtain ⟨rfl, hrest⟩ := selfDelimiting_import ha hb h
    exact ⟨rfl, hrest⟩
  · exact absurd h (text_import_ne_text_class ha b s t)
  · exact absurd h.symm (text_import_ne_text_class hb a t s)
  · obtain ⟨rfl, hrest⟩ := selfDelimiting_classDecl ha hb h
    exact ⟨rfl, hrest⟩

theorem WellFormed.text_ne_nil {part : Part} (h : part.WellFormed) : part.text ≠ [] := by
  rcases part with decl | decl
  · have h : decl.WellFormed := h
    rw [text, h.toList_render]
    simp
  · rw [text, decl.toList_render]
    cases decl.exported <;> simp

end Part

/-- The parts of a module: the imports, then the classes. -/
def Module.parts (unit : Module) : List Part := unit.imports.map .inl ++ unit.classes.map .inr

theorem Module.WellFormed.parts {unit : Module} (h : unit.WellFormed) :
    ∀ part ∈ unit.parts, part.WellFormed := by
  intro part hmem
  rcases List.mem_append.1 hmem with hmem | hmem
  · obtain ⟨decl, hdecl, rfl⟩ := List.mem_map.1 hmem
    exact h.imports decl hdecl
  · obtain ⟨decl, hdecl, rfl⟩ := List.mem_map.1 hmem
    exact h.classes decl hdecl

theorem Module.toList_render (unit : Module) :
    unit.render.toList = unit.parts.flatMap Part.text := by
  rw [render, String.toList_append, String.toList_join, String.toList_join, parts]
  simp [List.flatMap_map, Part.text]

/-- **The text of a well-formed module determines the module.** -/
theorem Module.eq_of_render_eq {unit other : Module} (hunit : unit.WellFormed)
    (hother : other.WellFormed) (h : unit.render = other.render) : unit = other := by
  have h : unit.parts.flatMap Part.text = other.parts.flatMap Part.text := by
    rw [← toList_render, ← toList_render, h]
  have hparts := Part.selfDelimiting_text.flatMap_inj (fun _ hpart => hpart.text_ne_nil)
    hunit.parts hother.parts h
  obtain ⟨himports, hclasses⟩ := map_inl_append_map_inr_inj hparts
  cases unit
  cases other
  simp_all

/-- A module with both kinds of import, a class of each kind, and an address that looks like the end
    of its request. -/
def quotingModule : Module where
  imports := [⟨"axios", some "axios", []⟩, ⟨"./types", none, ["User", "Id"]⟩]
  classes := [
    ⟨"Client", true,
      [⟨"/a\"\x7d);\n", "find", "get", [⟨"id", "string"⟩], [⟨"body", "Id[]"⟩], true⟩],
      [⟨"users", "UsersAPISet", true⟩]⟩,
    ⟨"UsersAPISet", false, [], [⟨"self", "Client", false⟩]⟩]

theorem quotingModule_eq_of_render_eq :
    quotingModule.WellFormed ∧ quotingModule.render = quotingModule.render ∧
      quotingModule = quotingModule := by
  have hwell : quotingModule.WellFormed := by decide
  exact ⟨hwell, rfl, Module.eq_of_render_eq hwell hwell rfl⟩

end ApiScribe.Code
