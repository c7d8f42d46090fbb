import CodeMarkup.Proofs.Language.Accurate

/-! # Numbering inside of modes

A mode that is asked for inside another one is numbered, unless the grammar is flawed or modes are
not followed deep enough (`numbersInside`). All modes that are added on the way are finished,
and the arena stays accurate (`Grown`). -/

namespace CodeMarkup

variable {ρ : Type} [Engine ρ]

namespace Language

/-- The mode that is asked for at a place is the one there. -/
theorem Refers.variant? {shelf : Shelf} {m source : Mode} {around : Option String} {p : Shelf.Place}
    {terminator : String} (h : Refers shelf m around p source terminator) :
    shelf.variant? p.1 p.2 = some source := by
  cases h with
  | child _ _ hsource => exact hsource
  | next _ _ => rfl

variable {g : Grammar} {alone : List Key} {a b c : Arena ρ}

/-! ### What comes of a run -/

/-- Whether a run breaks off just for want of depth or since the grammar is flawed, and what comes of
it otherwise is as it should be. -/
structure Comes (g : Grammar) {α : Type} (post : α → Arena ρ → Prop)
    (x : Except GrammarProblem (α × Arena ρ)) : Prop where
  error : ∀ cause, x = .error cause → cause = .endless ∨ Flawed g ρ
  ok : ∀ v b, x = .ok (v, b) → post v b

namespace Comes

variable {α β : Type} {post : α → Arena ρ → Prop} {post' : β → Arena ρ → Prop}

theorem of_ok {v : α} (h : post v a) : Comes g post (.ok (v, a)) where
  error _ he := by cases he
  ok _ _ hv := by
    cases hv
    exact h

theorem of_flawed (h : Flawed g ρ) (cause : GrammarProblem) : Comes g post (.error cause) where
  error _ _ := Or.inr h
  ok _ _ hv := by cases hv

theorem bind {x : Compiling ρ α} {f : α → Compiling ρ β} (h : Comes g post (x a))
    (hf : ∀ v b, post v b → Comes g post' (f v b)) : Comes g post' ((x >>= f) a) := by
  change Comes g post' (x a >>= fun p => f p.1 p.2)
  cases hx : x a with
  | error cause => exact ⟨fun e he => h.error e (hx.trans (congrArg _ (Except.error.inj he))),
      fun _ _ hv => by cases hv⟩
  | ok p => exact hf p.1 p.2 (h.ok p.1 p.2 hx)

theorem mono {post' : α → Arena ρ → Prop} {x : Except GrammarProblem (α × Arena ρ)}
    (h : Comes g post x) (hpost : ∀ v b, post v b → post' v b) : Comes g post' x :=
  ⟨h.error, fun v b hv => hpost v b (h.ok v b hv)⟩

end Comes

/-! ### Arenas that grow -/

/-- An arena in which only finished modes have been added to another one. -/
structure Grown (g : Grammar) (alone : List Key) (a b : Arena ρ) : Prop where
  extends_ : a.Extends b
  accurate : Accurate g alone b
  finished : ∀ {i : Identity} {n : Nat}, b.number? i = some n → a.number? i = none →
    IsFinished g b i n

namespace Grown

theorem refl (ha : Accurate g alone a) : Grown g alone a a where
  extends_ := .refl a
  accurate := ha
  finished hb ha := by
    rw [ha] at hb
    cases hb

theorem trans (hab : Grown g alone a b) (hbc : Grown g alone b c) : Grown g alone a c where
  extends_ := hab.extends_.trans hbc.extends_
  accurate := hbc.accurate
  finished {i n} hn ha := by
    cases hb : b.number? i with
    | none => exact hbc.finished hn hb
    | some k =>
      obtain rfl := Option.some.inj ((hbc.extends_.known hb).symm.trans hn)
      exact (hab.finished hb ha).extends_ hab.accurate.tidy hbc.extends_

end Grown

/-! ### Links -/

section Links

variable {id : Nat} {m : Mode} {around : Option String} {children : List Nat}
  {own : CompiledMode ρ}

theorem malformed_of_refusesChild {c : Child} (hc : c ∈ m.contains.getD [])
    (h : RefusesChild g.shelf c) : Malformed g alone ρ m around := by
  rcases h with ⟨slot, rfl, hslot⟩ | ⟨key, hkey, hnested⟩
  · exact .slot hc hslot
  · exact .nested hc hkey hnested

theorem linkTo_apply (foldCase : Bool) (id : Nat) (children : List Nat) (starts : Option Nat)
    (a : Arena ρ) : linkTo foldCase id children starts a =
      (Matcher.ofRules (a.rules id children) foldCase >>= fun matcher =>
        .ok (id, a.link id children starts matcher)) := by
  unfold linkTo
  change ((Matcher.ofRules (a.rules id children) foldCase :
    Except GrammarProblem (Matcher ρ)) >>= fun matcher => pure (matcher, a)) >>= _ = _
  cases (Matcher.ofRules (a.rules id children) foldCase :
    Except GrammarProblem (Matcher ρ)) <;> rfl

/-- A mode that gets its links is finished. -/
theorem finished_link {parent starts : Option Nat} {matcher : Matcher ρ}
    (ha : a.Tidy) (hown : a.modes[id]? = some own) (hc : ChildrenAre g.shelf a id m children)
    (hstarts : ∀ key, m.starts = some key →
      ∃ k, a.number? (identity g.shelf key none (g.shelf.mode key) parent) = some k)
    (hmatcher : Matcher.ofRules (a.rules id children) g.caseInsensitive = .ok matcher) :
    Finished g (a.link id children starts matcher) id m parent
      { own with children, starts, matcher } where
  found := by rw [Arena.getElem?_link_self, hown, Option.map_some]
  children := hc
  starts := hstarts
  matcher := by
    have hid := Arena.lt_size hown
    rw [(Arena.preserves_link a id children starts matcher).rules hid (hc.lt ha hid)]
    exact hmatcher

/-- A mode that is met gets its links and is finished, unless its rules are refused. -/
theorem comes_linkTo (halone : Followed g alone) (hm : Met g alone m around)
    (ha : Accurate g alone a) (hfound : a.modes[id]? = some own)
    (hown : ownFields g.caseInsensitive m around = .ok own)
    (hc : ChildrenAre g.shelf a id m children) {parent : Option Nat}
    (hstarts : ∀ key, m.starts = some key →
      ∃ k, a.number? (identity g.shelf key none (g.shelf.mode key) parent) = some k)
    (starts : Option Nat) :
    Comes g (fun n b => n = id ∧ ∃ matcher cm, b = a.link id children starts matcher ∧
        Finished g b id m parent cm)
      (linkTo g.caseInsensitive id children starts a) := by
  have hrules := ha.rules hfound (bare_of_ownFields hown) hc
  rw [linkTo_apply]
  cases hmatcher : (Matcher.ofRules (a.rules id children) g.caseInsensitive :
      Except GrammarProblem (Matcher ρ)) with
  | ok matcher =>
    exact .of_ok ⟨rfl, matcher, _, rfl, finished_link ha.tidy hfound hc hstarts hmatcher⟩
  | error cause =>
    refine .of_flawed ⟨alone, m, around, halone, hm, ?_⟩ cause
    have hfails := fails_ofRules_iff.mp ⟨cause, hmatcher⟩
    rw [hrules] at hfails
    rcases hfails with ⟨source, hmem, hinvalid⟩ | ⟨hne, hinvalid⟩
    · exact .rule hmem hinvalid
    · refine .joined (fun he => hne ?_) hinvalid
      rw [he] at hrules
      exact List.map_eq_nil_iff.mp hrules

end Links

/-! ### Answers -/

/-- Requests are answered one after the other. -/
theorem comes_mapM {answer : Request → Compiling ρ Nat} {id : Nat} : ∀ {rs : List Request}
    {a : Arena ρ}, Accurate g alone a →
    (∀ r ∈ rs, ∀ b, a.Extends b → Accurate g alone b →
      Comes g (fun n c => Grown g alone b c ∧ Answers g.shelf c id r n) (answer r b)) →
    Comes g (fun ns b => Grown g alone a b ∧ List.Forall₂ (Answers g.shelf b id) rs ns)
      (rs.mapM answer a)
  | [], a, ha, _ => .of_ok ⟨.refl ha, .nil⟩
  | r :: rs, a, ha, h => by
    obtain ⟨hr, hrs⟩ := List.forall_mem_cons.mp h
    rw [List.mapM_cons]
    refine (hr a (.refl a) ha).bind fun n b hb => ?_
    obtain ⟨hab, hn⟩ := hb
    refine (comes_mapM hab.accurate fun r' hr' c hbc hc =>
      hrs r' hr' c (hab.extends_.trans hbc) hc).bind fun ns c hc => ?_
    obtain ⟨hbc, hns⟩ := hc
    exact .of_ok ⟨hab.trans hbc, .cons (hn.mono hbc.extends_.known) hns⟩

/-- Whether modes that are followed so deep are numbered inside others. -/
def NumbersInside (ρ : Type) [Engine ρ] (g : Grammar) (depth : Nat) : Prop :=
  ∀ {alone : List Key} {m source : Mode} {around : Option String} {p : Shelf.Place} {parent : Nat}
    {a : Arena ρ}, Followed g alone → Met g alone m around →
    Refers g.shelf m around p source (a.terminator parent) → Accurate g alone a →
    parent < a.modes.size →
    Comes g (fun n b => Grown g alone a b ∧
        b.number? (identity g.shelf p.1 p.2 source (some parent)) = some n)
      (compileMode g.shelf g.caseInsensitive depth source
        (some (identity g.shelf p.1 p.2 source (some parent))) (some parent) a)

section Inside

variable {depth : Nat} (hinside : NumbersInside ρ g depth) (halone : Followed g alone)
  {m : Mode} {around : Option String} (hm : Met g alone m around) (ha : Accurate g alone a)

include hinside halone hm ha

/-- The children of a mode that is met. -/
theorem comes_childIds {id : Nat} (hid : id < a.modes.size)
    (hterminator : a.terminator id = (boundsIn m around).2.2) :
    Comes g (fun ids b => Grown g alone a b ∧ ChildrenAre g.shelf b id m ids)
      (childIds g.shelf (compileMode g.shelf g.caseInsensitive depth) id (m.contains.getD []) a) := by
  rw [childIds_eq]
  refine comes_mapM ha fun r hr b hab hb => ?_
  obtain ⟨c, hc, hr⟩ := List.mem_flatMap.mp hr
  rcases of_mem_childRequests hr with rfl | ⟨p, source, rfl, hp, hsource⟩ | ⟨cause, rfl, hrefuses⟩
  · exact .of_ok ⟨.refl hb, rfl⟩
  · have hrefers : Refers g.shelf m around p source (b.terminator id) := by
      rw [hab.preserves.terminator hid, hterminator]
      exact .child hc hp hsource
    exact hinside halone hm hrefers hb (Nat.lt_of_lt_of_le hid hab.preserves.size_le)
  · exact .of_flawed ⟨alone, m, around, halone, hm, malformed_of_refusesChild hc hrefuses⟩ cause

omit ha in
/-- A new mode that is met is numbered if its fields can be made, then its children, what follows it
and its links. -/
theorem comes_numberNew {i : Option Identity} {parent : Option Nat} {post : Nat → Arena ρ → Prop}
    (haround : parent.map a.terminator = around)
    (hadd : ∀ own, ownFields g.caseInsensitive m around = .ok own → Accurate g alone (a.add own i))
    (hrest : ∀ own children b, ownFields g.caseInsensitive m around = .ok own →
      Grown g alone (a.add own i) b → ChildrenAre g.shelf b a.modes.size m children →
      Comes g post
        ((followIds g.shelf (compileMode g.shelf g.caseInsensitive depth) parent m.starts >>=
          linkTo g.caseInsensitive a.modes.size children) b)) :
    Comes g post
      (numberNew g.shelf (compileMode g.shelf g.caseInsensitive depth) g.caseInsensitive m i parent
        a) := by
  rw [numberNew_apply, haround]
  cases hown : (ownFields g.caseInsensitive m around :
      Except GrammarProblem (CompiledMode ρ)) with
  | error cause =>
    have hfaulty := fails_ownFields_iff.mp ⟨cause, hown⟩
    exact .of_flawed ⟨alone, m, around, halone, hm, .fields hfaulty⟩ cause
  | ok own =>
    have hid : a.modes.size < (a.add own i).modes.size := by
      rw [Arena.size_add]
      omega
    have hterminator : (a.add own i).terminator a.modes.size = (boundsIn m around).2.2 := by
      rw [Arena.terminator, Arena.getElem?_add_size]
      exact terminator_of_ownFields (bare_of_ownFields hown)
    have hchildren := comes_childIds hinside halone hm (hadd own hown) hid hterminator
    have hcomes := hchildren.bind fun children b hb => hrest own children b hown hb.1 hb.2
    rw [childIds_bind_followIds] at hcomes
    exact hcomes

omit hm in
/-- What follows a mode that is met inside another one. -/
theorem comes_followIds {parent : Nat} (hm : Met g alone m (some (a.terminator parent)))
    (hparent : parent < a.modes.size) :
    Comes g (fun _ b => Grown g alone a b ∧ ∀ key, m.starts = some key →
        ∃ k, b.number? (identity g.shelf key none (g.shelf.mode key) (some parent)) = some k)
      (followIds g.shelf (compileMode g.shelf g.caseInsensitive depth) (some parent) m.starts a) := by
  cases hstarts : m.starts with
  | none => exact .of_ok ⟨.refl ha, fun key hkey => by cases hkey⟩
  | some key =>
    rw [followIds, map_eq_pure_bind]
    refine (hinside halone hm (.next rfl hstarts) ha hparent).bind fun n b hb => ?_
    refine .of_ok ⟨hb.1, fun k hk => ?_⟩
    cases hk
    exact ⟨n, hb.2⟩

end Inside

/-- An identity without a parent is that of a mode that is the same inside of all. -/
theorem Identity.IsAlone.eq {i : Identity} (h : i.IsAlone alone) : i = ⟨i.key, none, none⟩ := by
  obtain ⟨hvariant, hparent, -⟩ := h
  obtain ⟨key, variant, parent⟩ := i
  cases hvariant
  cases hparent
  rfl

/-- What is not known yet has not been met with no mode around it. -/
theorem Accurate.not_isAlone (h : Accurate g alone a) {i : Identity} (hi : a.number? i = none) :
    ¬ i.IsAlone alone := by
  intro halone
  obtain ⟨n, hn⟩ := h.met i.key halone.2.2
  rw [← halone.eq, hi] at hn
  cases hn

/-- A mode is added where it is asked for inside another one. -/
theorem Accurate.add_inside (ha : Accurate g alone a) {m source : Mode} {around : Option String}
    (hm : Met g alone m around) {p : Shelf.Place} {parent : Nat}
    (hr : Refers g.shelf m around p source (a.terminator parent))
    (hp : isAlone g.shelf alone p = false) (hparent : parent < a.modes.size)
    (hnew : a.number? (identity g.shelf p.1 p.2 source (some parent)) = none)
    {own : CompiledMode ρ}
    (hown : ownFields g.caseInsensitive source (some (a.terminator parent)) = .ok own) :
    Accurate g alone (a.add own (some (identity g.shelf p.1 p.2 source (some parent)))) := by
  have hsource := hr.variant?
  have hidentity : ∀ q, (identity g.shelf p.1 p.2 source (some parent)).parent = some q →
      q = parent := by
    intro q hq
    unfold identity at hq
    dsimp only at hq
    split at hq
    · exact (Option.some.inj hq).symm
    · cases hq
  refine ha.add hnew hsource hown (situated_identity hsource hp parent)
    (fun q hq => hidentity q hq ▸ hparent) (fun _ => Iff.rfl) (fun _ => Or.inl) ?_
  rintro key (hkey | hkey)
  · exact hkey
  · -- known inside of all modes, hence not depending on the mode around it
    obtain ⟨k, variant⟩ := p
    obtain ⟨rfl, hrest⟩ := Identity.mk.inj hkey
    obtain ⟨rfl, hnone⟩ := hrest
    refine Or.inr ⟨?_, m, around, source, _, hm, hr⟩
    rw [Shelf.dependsAt_eq hsource]
    cases hd : g.shelf.dependsOnParent source with
    | false => rfl
    | true =>
      rw [hd, if_pos rfl] at hnone
      cases hnone

/-- Following modes one deeper. -/
theorem NumbersInside.succ {depth : Nat} (hinside : NumbersInside ρ g depth) :
    NumbersInside ρ g (depth + 1) := by
  intro alone m source around p parent a halone hm hr ha hparent
  generalize hi : identity g.shelf p.1 p.2 source (some parent) = i
  rw [compileMode_succ, Option.bind_some]
  cases hn : a.number? i with
  | some n => exact .of_ok ⟨.refl ha, hn⟩
  | none =>
    have hp : isAlone g.shelf alone p = false := Bool.eq_false_iff.mpr fun h =>
      ha.not_isAlone hn (hi ▸ (isAlone_identity hr.variant? parent).mpr h)
    have hmet : Met g alone source (some (a.terminator parent)) := .inside hm hr hp
    -- the mode is added before what it leads to, which may lead back to it
    refine comes_numberNew hinside halone hmet rfl (fun own hown => ?_)
      fun own children c hown hac hc => ?_
    · subst hi
      exact ha.add_inside hm hr hp hparent hn hown
    have hext := Arena.extends_add own (a := a) (i := some i) hn
    have hparent' : parent < c.modes.size :=
      Nat.lt_of_lt_of_le hparent (hext.trans hac.extends_).preserves.size_le
    have hterminator : c.terminator parent = a.terminator parent :=
      (hext.trans hac.extends_).preserves.terminator hparent
    refine (comes_followIds hinside halone hac.accurate (hterminator ▸ hmet) hparent').bind
      fun starts d hfollow => ?_
    obtain ⟨hcd, hstarts⟩ := hfollow
    have had := hac.trans hcd
    have hfound := had.extends_.modes (Arena.getElem?_add_size a own (some i))
    have hc := hc.mono hcd.extends_.known
    refine (comes_linkTo halone hmet hcd.accurate hfound hown hc hstarts starts).mono ?_
    rintro n b ⟨rfl, matcher, cm, rfl, hfinished⟩
    have hnumber : d.number? i = some a.modes.size :=
      had.extends_.known (by rw [Arena.number?_add, if_pos rfl])
    refine ⟨⟨(hext.trans had.extends_).link .., hcd.accurate.link .., fun {j k} hk hnew => ?_⟩,
      hnumber⟩
    -- what is new is the mode itself, or it has been finished while following what that leads to
    by_cases hj : j = i
    · subst hj
      obtain rfl : a.modes.size = k := Option.some.inj (hnumber.symm.trans hk)
      have hsource : g.shelf.variant? j.key j.variant = some source := hi ▸ hr.variant?
      refine ⟨source, some parent, cm, hsource, ?_, hfinished⟩
      rw [← hi]
      rfl
    · have hadded : (a.add own (some i)).number? j = none := by
        rw [Arena.number?_add, if_neg fun he => hj (Option.some.inj he).symm, hnew]
      have hne : k ≠ a.modes.size := by
        rintro rfl
        exact hj (hcd.accurate.tidy.inj hk hnumber)
      exact (had.finished hk hadded).mono hcd.accurate.tidy (Arena.preserves_link ..)
        (Arena.getElem?_link_ne d hne ..)

/-- **Modes are numbered inside others**, however deep they are followed: this breaks off for want of
depth or since the grammar is flawed, or else leaves an accurate arena in which all modes that it has
added are finished. -/
theorem numbersInside (g : Grammar) (depth : Nat) : NumbersInside ρ g depth := by
  induction depth with
  | zero =>
    intro _ _ _ _ _ _ _ _ _ _ _ _
    exact ⟨fun _ he => Or.inl (Except.error.inj he).symm, fun _ _ hv => by cases hv⟩
  | succ depth ih => exact NumbersInside.succ ih

end Language

end CodeMarkup
