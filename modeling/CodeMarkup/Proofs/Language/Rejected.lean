import CodeMarkup.Proofs.Language.Answered
import CodeMarkup.Proofs.Language.Terminates

/-! # The grammars that are rejected

A grammar is rejected just where the root contains itself or some mode that is met is malformed
(`compile_rejects`). While modes with none around them are numbered, one after the other, those that
have been met but still wait for what follows them are `pending`; all others are finished
(`Complete`). All that has been met is known then, so once nothing is pending no mode that is met
escapes (`Complete.not_malformed`). -/

namespace CodeMarkup

variable {ρ : Type} [Engine ρ]

namespace Language

variable {g : Grammar} {alone pending : List Key} {a b c d : Arena ρ}

/-! ### Arenas that are complete -/

/-- An arena in which all modes are finished but the root and those that are pending, and these have
their children. -/
structure Complete (g : Grammar) (alone pending : List Key) (a : Arena ρ) : Prop where
  accurate : Accurate g alone a
  subset : ∀ key ∈ pending, key ∈ alone
  finished : ∀ {i : Identity} {n : Nat}, a.number? i = some n → ¬ i.IsAlone pending →
    IsFinished g a i n
  children : ∀ key ∈ pending, ∃ n ids, a.number? ⟨key, none, none⟩ = some n ∧
    ChildrenAre g.shelf a n (g.shelf.mode key) ids
  root : ∃ ids, ChildrenAre g.shelf a 0 g.root ids

/-- The terminator of a mode where it is situated. -/
theorem Accurate.terminator (h : Accurate g alone a) {i : Identity} {n : Nat}
    (hn : a.number? i = some n) {m : Mode} (hm : g.shelf.variant? i.key i.variant = some m)
    {around : Option String} (hi : Situated g.shelf alone a i m around) :
    a.terminator n = (boundsIn m around).2.2 := by
  obtain ⟨cm, hcm, hown⟩ := h.own hn hm hi
  rw [Arena.terminator, hcm]
  exact terminator_of_ownFields hown

namespace Complete

/-- A mode that has been met with none around it has its children. -/
theorem exists_children (h : Complete g alone pending a) {key : Key} (hkey : key ∈ alone) :
    ∃ n ids, a.number? ⟨key, none, none⟩ = some n ∧
      ChildrenAre g.shelf a n (g.shelf.mode key) ids := by
  by_cases hpending : key ∈ pending
  · exact h.children key hpending
  · obtain ⟨n, hn⟩ := h.accurate.met key hkey
    obtain ⟨m, parent, cm, hm, -, hf⟩ := h.finished hn fun hi => hpending hi.2.2
    obtain rfl := Option.some.inj hm
    exact ⟨n, cm.children, hn, hf.children⟩

/-- **All that a mode refers to that has been met is known.** -/
theorem exists_number (h : Complete g alone pending a) {m : Mode} {around : Option String}
    (hm : Met g alone m around) : ∀ {p : Shelf.Place} {source : Mode} {t : String},
      Refers g.shelf m around p source t → ∃ parent n, a.terminator parent = t ∧
        a.number? (identity g.shelf p.1 p.2 source (some parent)) = some n := by
  induction hm with
  | root =>
    intro p source t hr
    obtain ⟨ids, hids⟩ := h.root
    obtain ⟨cm, hcm, hown⟩ := h.accurate.root
    cases hr with
    | next hnone _ => cases hnone
    | child hc hp hsource =>
      obtain ⟨n, hn⟩ := hids.known hc hp hsource
      refine ⟨0, n, ?_, hn⟩
      rw [Arena.terminator, hcm]
      exact terminator_of_ownFields hown
  | @alone key hkey =>
    intro p source t hr
    obtain ⟨k, ids, hk, hids⟩ := h.exists_children hkey
    cases hr with
    | next hnone _ => cases hnone
    | child hc hp hsource =>
      obtain ⟨n, hn⟩ := hids.known hc hp hsource
      have hi : Situated g.shelf alone a ⟨key, none, none⟩ (g.shelf.mode key) none :=
        ⟨rfl, rfl, hkey⟩
      exact ⟨k, n, h.accurate.terminator hk rfl hi, hn⟩
  | @inside m source around p t hm hr hp ih =>
    intro q inner s hr'
    have hsource := hr.variant?
    -- the mode is known as what is around it refers to it, and finished as it is not pending
    obtain ⟨parent, k, rfl, hk⟩ := ih hr
    have hi := situated_identity (a := a) hsource hp parent
    obtain ⟨m', parent', cm, hm', he, hf⟩ := h.finished hk fun halone =>
      hi.1 ⟨halone.1, halone.2.1, h.subset _ halone.2.2⟩
    obtain rfl := Option.some.inj (hsource.symm.trans hm')
    cases hr' with
    | child hc hq hinner =>
      obtain ⟨n, hn⟩ := hf.children.known hc hq hinner
      exact ⟨k, n, h.accurate.terminator hk hsource hi, hn⟩
    | @next key _ hsome hstarts =>
      cases hsome
      obtain ⟨n, hn⟩ := hf.starts key hstarts
      have hwithin : Identifies g.shelf source (some parent)
          (identity g.shelf p.1 p.2 source (some parent)) := ⟨p.1, p.2, hsource, rfl⟩
      have hwithin' : Identifies g.shelf source parent'
          (identity g.shelf p.1 p.2 source (some parent)) := ⟨p.1, p.2, hsource, he⟩
      rw [hwithin'.identity_starts hwithin hstarts] at hn
      exact ⟨parent, n, rfl, hn⟩

/-- **No mode that is met is malformed** once nothing is pending and the root is finished too. -/
theorem not_malformed (h : Complete g alone [] a) {cm : CompiledMode ρ}
    (hroot : Finished g a 0 g.root none cm) {m : Mode} {around : Option String}
    (hm : Met g alone m around) : ¬ Malformed g alone ρ m around := by
  have hknown : ∀ {i : Identity} {n : Nat}, a.number? i = some n →
      g.shelf.variant? i.key i.variant = some m → Situated g.shelf alone a i m around →
        ¬ Malformed g alone ρ m around := by
    intro i n hn hv hi
    obtain ⟨m', parent, cm, hm', -, hf⟩ := h.finished hn fun hnone =>
      absurd hnone.2.2 List.not_mem_nil
    obtain rfl := Option.some.inj (hv.symm.trans hm')
    obtain ⟨cm', hcm', hown⟩ := h.accurate.own hn hv hi
    obtain rfl := Option.some.inj (hf.found.symm.trans hcm')
    exact hf.not_malformed h.accurate hown
  cases hm with
  | root =>
    obtain ⟨cm', hcm', hown⟩ := h.accurate.root
    obtain rfl := Option.some.inj (hroot.found.symm.trans hcm')
    exact hroot.not_malformed h.accurate hown
  | alone hkey =>
    obtain ⟨n, hn⟩ := h.accurate.met _ hkey
    exact hknown hn rfl ⟨rfl, rfl, hkey⟩
  | inside hm hr hp =>
    obtain ⟨parent, n, rfl, hn⟩ := h.exists_number hm hr
    exact hknown hn hr.variant? (situated_identity hr.variant? hp parent)

end Complete

/-! ### One mode after the other -/

@[simp] theorem identity_none (shelf : Shelf) (key : Key) (variant : Option Nat) (m : Mode) :
    identity shelf key variant m none = ⟨key, variant, none⟩ := by
  unfold identity
  split <;> rfl

/-- What follows is met with no mode around it if it is not known yet. -/
theorem Complete.followed (h : Complete g alone pending a) (halone : Followed g alone) {key : Key}
    (hstart : startOf g alone = some key) (hnew : a.number? ⟨key, none, none⟩ = none) :
    Followed g (key :: alone) := by
  refine .cons halone hstart (fun hkey => ?_) fun m around source t hm hr => ?_
  · obtain ⟨n, hn⟩ := h.accurate.met key hkey
    rw [hnew] at hn
    cases hn
  · obtain ⟨parent, n, -, hn⟩ := h.exists_number hm hr
    have hsource := hr.variant?
    cases hd : g.shelf.dependsOnParent source with
    | true => exact (Shelf.dependsAt_eq hsource).trans hd
    | false =>
      rw [identity, hd, if_neg Bool.false_ne_true, hnew] at hn
      cases hn

/-- A mode that is added with none around it. -/
theorem Complete.add (h : Complete g alone pending a) {key : Key}
    (hkey : Followed g (key :: alone)) (hnew : a.number? ⟨key, none, none⟩ = none)
    {own : CompiledMode ρ}
    (hown : ownFields g.caseInsensitive (g.shelf.mode key) none = .ok own) :
    Accurate g (key :: alone) (a.add own (some ⟨key, none, none⟩)) := by
  refine h.accurate.add (m := g.shelf.mode key) hnew rfl hown
    ⟨rfl, rfl, List.mem_cons_self⟩ (fun p hp => by cases hp) (fun {j n} hn => ?_) ?_ ?_
  · refine ⟨fun hj => ⟨hj.1, hj.2.1, ?_⟩, fun hj => ⟨hj.1, hj.2.1, List.mem_cons_of_mem _ hj.2.2⟩⟩
    refine (List.mem_cons.mp hj.2.2).resolve_left fun he => ?_
    rw [hj.eq, he, hnew] at hn
    cases hn
  · intro k hk
    exact (List.mem_cons.mp hk).symm.imp_right fun he => by rw [he]
  · rintro k (hk | hk)
    · exact hk.cons hkey
    · exact Or.inl (List.mem_cons.mpr (Or.inl (congrArg Identity.key hk).symm))

/-- A mode that is met with no mode around it is pending once it has its children. -/
theorem Complete.cons (h : Complete g alone alone a) {key : Key}
    (hnew : a.number? ⟨key, none, none⟩ = none) {own : CompiledMode ρ}
    (hgrown : Grown g (key :: alone) (a.add own (some ⟨key, none, none⟩)) b) {ids : List Nat}
    (hids : ChildrenAre g.shelf b a.modes.size (g.shelf.mode key) ids) :
    Complete g (key :: alone) (key :: alone) b := by
  have hext : a.Extends b :=
    (Arena.extends_add own (i := some ⟨key, none, none⟩) hnew).trans hgrown.extends_
  refine {
    accurate := hgrown.accurate
    subset := fun _ hk => hk
    finished := fun {i n} hn hi => ?_
    children := fun k hk => ?_
    root := ?_ }
  · cases ha : a.number? i with
    | some k =>
      obtain rfl := Option.some.inj ((hext.known ha).symm.trans hn)
      refine (h.finished ha fun halone => hi ?_).extends_ h.accurate.tidy hext
      exact ⟨halone.1, halone.2.1, List.mem_cons_of_mem _ halone.2.2⟩
    | none =>
      refine hgrown.finished hn ?_
      rw [Arena.number?_add, if_neg, ha]
      intro he
      obtain rfl := Option.some.inj he
      exact hi ⟨rfl, rfl, List.mem_cons_self⟩
  · rcases List.mem_cons.mp hk with rfl | hk
    · refine ⟨a.modes.size, ids, hgrown.extends_.known ?_, hids⟩
      rw [Arena.number?_add, if_pos rfl]
    · obtain ⟨n, ids, hn, hids⟩ := h.children k hk
      exact ⟨n, ids, hext.known hn, hids.mono hext.known⟩
  · obtain ⟨ids, hids⟩ := h.root
    exact ⟨ids, hids.mono hext.known⟩

/-- A mode that gets its links is not pending any more. -/
theorem Complete.link {key : Key} {more : List Key} (h : Complete g more (key :: pending) a)
    {id : Nat} (hid : a.number? ⟨key, none, none⟩ = some id) {children : List Nat}
    {starts : Option Nat} {matcher : Matcher ρ} {cm : CompiledMode ρ}
    (hf : Finished g (a.link id children starts matcher) id (g.shelf.mode key) none cm) :
    Complete g more pending (a.link id children starts matcher) where
  accurate := h.accurate.link ..
  subset k hk := h.subset k (List.mem_cons_of_mem _ hk)
  finished {i n} hn hi := by
    have hn : a.number? i = some n := hn
    by_cases hkey : i = ⟨key, none, none⟩
    · subst hkey
      obtain rfl := Option.some.inj (hid.symm.trans hn)
      exact ⟨g.shelf.mode key, none, cm, rfl, (identity_none ..).symm, hf⟩
    · have hne : n ≠ id := by
        rintro rfl
        exact hkey (h.accurate.tidy.inj hn hid)
      refine (h.finished hn fun halone => ?_).mono h.accurate.tidy (Arena.preserves_link ..)
        (Arena.getElem?_link_ne a hne ..)
      rcases List.mem_cons.mp halone.2.2 with he | hmem
      · exact hkey (he ▸ halone.eq)
      · exact hi ⟨halone.1, halone.2.1, hmem⟩
  children k hk := h.children k (List.mem_cons_of_mem _ hk)
  root := h.root

/-- An arena in which all that is met with no mode around it has been met, after these modes, which
are still pending. -/
structure Ended (g : Grammar) (alone more : List Key) (a b : Arena ρ) : Prop where
  extends_ : a.Extends b
  suffix : alone <:+ more
  followed : Followed g more
  last : ∀ key, ¬ Followed g (key :: more)
  complete : Complete g more alone b

/-- Whether what follows is numbered with no mode around it by a way to number modes. -/
def NumbersAlone (g : Grammar)
    (compile : Mode → Option Identity → Option Nat → Compiling ρ Nat) : Prop :=
  ∀ {alone : List Key} {a : Arena ρ}, Followed g alone → Complete g alone alone a →
    Comes g (fun _ b => (∃ more, Ended g alone more a b) ∧ ∀ key, startOf g alone = some key →
        ∃ n, b.number? (identity g.shelf key none (g.shelf.mode key) none) = some n)
      (followIds g.shelf compile none (startOf g alone) a)

theorem Ended.refl (halone : Followed g alone) (h : Complete g alone alone a)
    (hlast : ∀ key, startOf g alone = some key → Explained g alone key) :
    Ended g alone alone a a where
  extends_ := .refl a
  suffix := List.suffix_refl alone
  followed := halone
  last key hf := by
    cases hf with
    | cons _ hstart hkey hnew =>
      exact (hlast key hstart).not_followed (.cons halone hstart hkey hnew)
  complete := h

/-- Only what does follow has to be numbered. -/
theorem numbersAlone_of_start {compile : Mode → Option Identity → Option Nat → Compiling ρ Nat}
    (h : ∀ {alone : List Key} {a : Arena ρ} {key : Key}, Followed g alone →
      Complete g alone alone a → startOf g alone = some key →
      Comes g (fun _ b => (∃ more, Ended g alone more a b) ∧
          ∃ n, b.number? ⟨key, none, none⟩ = some n)
        (compile (g.shelf.mode key) (some ⟨key, none, none⟩) none a)) :
    NumbersAlone g compile := by
  intro alone a halone ha
  cases hstart : startOf g alone with
  | none =>
    refine .of_ok ⟨⟨alone, .refl halone ha fun key hkey => ?_⟩, fun key hkey => ?_⟩
    · rw [hstart] at hkey
      cases hkey
    · cases hkey
  | some key =>
    rw [followIds, map_eq_pure_bind, identity_none]
    refine (h halone ha hstart).bind fun n b hb => .of_ok ⟨hb.1, fun k hk => ?_⟩
    cases hk
    rw [identity_none]
    exact hb.2

/-- Following modes one deeper. -/
theorem NumbersAlone.succ {depth : Nat}
    (hfollow : NumbersAlone (ρ := ρ) g (compileMode g.shelf g.caseInsensitive depth)) :
    NumbersAlone (ρ := ρ) g (compileMode g.shelf g.caseInsensitive (depth + 1)) := by
  refine numbersAlone_of_start fun {alone a key} halone h hstart => ?_
  rw [compileMode_succ, Option.bind_some]
  cases hn : a.number? ⟨key, none, none⟩ with
  | some n =>
    refine .of_ok ⟨⟨alone, .refl halone h fun k hk => ?_⟩, n, hn⟩
    obtain rfl := Option.some.inj (hstart.symm.trans hk)
    exact h.accurate.known hn
  | none =>
    -- the mode is met now: its children are numbered inside it, what follows it by itself
    have hkey := h.followed halone hstart hn
    have hmet : Met g (key :: alone) (g.shelf.mode key) none := .alone List.mem_cons_self
    refine comes_numberNew (numbersInside g depth) hkey hmet rfl (fun _ => h.add hkey hn)
      fun own ids b hown hgrown hids => ?_
    have hext := Arena.extends_add own (a := a) (i := some ⟨key, none, none⟩) hn
    refine (hfollow hkey (h.cons hn hgrown hids)).bind fun starts d hd => ?_
    obtain ⟨⟨more, hended⟩, hstarts⟩ := hd
    have had := hgrown.extends_.trans hended.extends_
    have hfound := had.modes (Arena.getElem?_add_size a own (some ⟨key, none, none⟩))
    have hids := hids.mono hended.extends_.known
    have hmet := (hended.followed.met_of_suffix hended.suffix hmet).1
    refine (comes_linkTo hended.followed hmet hended.complete.accurate hfound hown hids hstarts
      starts).mono ?_
    rintro n e ⟨-, matcher, cm, rfl, hfinished⟩
    have hnumber : d.number? ⟨key, none, none⟩ = some a.modes.size :=
      had.known (by rw [Arena.number?_add, if_pos rfl])
    exact ⟨⟨more, {
      extends_ := (hext.trans had).link ..
      suffix := (List.suffix_cons key alone).trans hended.suffix
      followed := hended.followed
      last := hended.last
      complete := hended.complete.link hnumber hfinished }⟩, _, hnumber⟩

/-- **Modes are numbered with none around them**, one after the other and however deep they are
followed. -/
theorem numbersAlone (g : Grammar) (depth : Nat) :
    NumbersAlone (ρ := ρ) g (compileMode g.shelf g.caseInsensitive depth) := by
  induction depth with
  | zero =>
    refine numbersAlone_of_start fun {_ _ _} _ _ _ => ?_
    exact ⟨fun _ he => Or.inl (Except.error.inj he).symm, fun _ _ hv => by cases hv⟩
  | succ depth ih => exact NumbersAlone.succ ih

/-! ### The root -/

/-- An arena with nothing but the root is accurate. -/
theorem accurate_root {own : CompiledMode ρ}
    (hown : ownFields g.caseInsensitive g.root none = .ok own) :
    Accurate g [] (({} : Arena ρ).add own none) := by
  have hunknown : ∀ i, (({} : Arena ρ).add own none).number? i = none := fun _ => rfl
  refine {
    tidy := by constructor <;> intros <;> simp_all
    root := ⟨own, Arena.getElem?_add_size {} own none, bare_of_ownFields hown⟩
    fields := fun {i n} hn => ?_
    met := fun _ hkey => absurd hkey List.not_mem_nil
    known := fun {key n} hn => ?_ }
  · rw [hunknown] at hn
    cases hn
  · rw [hunknown] at hn
    cases hn

/-- The root gets its links last of all. -/
theorem Complete.link_root (h : Complete g alone [] a) (children : List Nat) (starts : Option Nat)
    (matcher : Matcher ρ) : Complete g alone [] (a.link 0 children starts matcher) where
  accurate := h.accurate.link ..
  subset := h.subset
  finished {i n} hn hi := by
    have hn : a.number? i = some n := hn
    have hne : n ≠ 0 := Nat.ne_of_gt (h.accurate.tidy.pos hn)
    exact (h.finished hn hi).mono h.accurate.tidy (Arena.preserves_link ..)
      (Arena.getElem?_link_ne a hne ..)
  children := h.children
  root := h.root

/-- **Numbering the modes of a grammar breaks off just for want of depth or since the grammar is
flawed**, or else all that is met is finished. -/
theorem comes_compileMode (g : Grammar) (depth : Nat) :
    Comes g (fun _ b => ∃ alone cm, Followed g alone ∧ (∀ key, ¬ Followed g (key :: alone)) ∧
        Complete g alone [] b ∧ Finished g b 0 g.root none cm)
      (compileMode g.shelf g.caseInsensitive depth g.root none none ({} : Arena ρ)) := by
  cases depth with
  | zero => exact ⟨fun _ he => Or.inl (Except.error.inj he).symm, fun _ _ hv => by cases hv⟩
  | succ depth =>
    rw [compileMode_succ, Option.bind_none]
    refine comes_numberNew (numbersInside g depth) .nil .root rfl (fun _ => accurate_root)
      fun own ids c hown hgrown hids => ?_
    have hcomplete : Complete g [] [] c := {
      accurate := hgrown.accurate
      subset := fun _ hk => hk
      finished := fun hn _ => hgrown.finished hn rfl
      children := fun _ hk => absurd hk List.not_mem_nil
      root := ⟨ids, hids⟩ }
    refine (numbersAlone g depth .nil hcomplete).bind fun starts d hd => ?_
    obtain ⟨⟨alone, hended⟩, hstarts⟩ := hd
    have hfound := hended.extends_.modes
      (hgrown.extends_.modes (Arena.getElem?_add_size {} own none))
    have hids := hids.mono hended.extends_.known
    refine (comes_linkTo hended.followed .root hended.complete.accurate hfound hown hids hstarts
      starts).mono ?_
    rintro n e ⟨-, matcher, cm, rfl, hfinished⟩
    exact ⟨alone, cm, hended.followed, hended.last, hended.complete.link_root .., hfinished⟩

/-- However deep modes are followed, numbering them breaks off just where the root contains itself or
the grammar is flawed, unless the depth does not do. -/
theorem fails_numberWithin_iff {depth : Nat} (hends : numberWithin ρ g depth ≠ .error .endless) :
    Fails (numberWithin ρ g depth) ↔ .self ∈ g.root.contains.getD [] ∨ Flawed g ρ := by
  have hcomes := comes_compileMode (ρ := ρ) g depth
  unfold numberWithin at hends ⊢
  by_cases hself : (g.root.contains.getD []).contains .self
  · rw [if_pos hself]
    exact ⟨fun _ => Or.inl (List.contains_iff_mem.mp hself), fun _ => fails_error _⟩
  · rw [if_neg hself] at hends ⊢
    rw [or_iff_right (mt List.contains_iff_mem.mpr hself)]
    constructor
    · rintro ⟨cause, hcause⟩
      refine (hcomes.error cause hcause).resolve_left ?_
      rintro rfl
      exact hends hcause
    · rintro ⟨alone, m, around, halone, hm, hbad⟩
      by_contra hok
      obtain ⟨v, hv⟩ := exists_ok_of_not_fails hok
      obtain ⟨all, cm, hall, hlast, hcomplete, hroot⟩ := hcomes.ok v.1 v.2 hv
      obtain ⟨hmet, hmalformed⟩ := hall.met_of_suffix (halone.suffix_of_last hall hlast) hm
      exact hcomplete.not_malformed hroot hmet (hmalformed hbad)

/-! ### Grammars -/

/-- Compiling a grammar fails just where numbering its modes does, and then goes by its name. -/
theorem compile_eq_error_iff {name : String} {p : Problem} :
    (compile g name : Except Problem (Language ρ)) = .error p ↔
      ∃ cause, numberWithin ρ g (depthBound g.shelf) = .error cause ∧
        p = .grammar (g.name.getD name) cause := by
  have hrun : (compileRoot g).run ({} : Arena ρ) = numberWithin ρ g (depthBound g.shelf) :=
    compileRoot_apply g
  unfold compile
  rw [hrun]
  dsimp only
  cases hroot : numberWithin ρ g (depthBound g.shelf) with
  | error cause =>
    refine ⟨fun h => ⟨cause, rfl, (Except.error.inj h).symm⟩, ?_⟩
    rintro ⟨cause', hcause, rfl⟩
    cases hcause
    rfl
  | ok v =>
    obtain ⟨id, b⟩ := v
    dsimp only
    rw [dif_pos (size_pos_of_numberWithin hroot)]
    refine ⟨fun h => (by cases h), ?_⟩
    rintro ⟨cause, hcause, -⟩
    cases hcause

/-- **A grammar is rejected just where its root contains itself or some mode that is met is
malformed**, as far as compiling it ends, however deep modes are followed. All that is said about it
goes under its name. -/
theorem compile_rejects (g : Grammar) (name : String) :
    ((∀ shown, (compile g name : Except Problem (Language ρ)) ≠
        .error (.grammar shown .endless)) →
      (Fails (compile g name : Except Problem (Language ρ)) ↔
        .self ∈ g.root.contains.getD [] ∨ Flawed g ρ)) ∧
    (∀ depth, numberWithin ρ g depth ≠ .error .endless →
      (Fails (numberWithin ρ g depth) ↔ .self ∈ g.root.contains.getD [] ∨ Flawed g ρ)) ∧
    ∀ p, (compile g name : Except Problem (Language ρ)) = .error p →
      ∃ cause, p = .grammar (g.name.getD name) cause := by
  refine ⟨fun hends => ?_, fun depth => fails_numberWithin_iff, fun p hp => ?_⟩
  · have hdepth : numberWithin ρ g (depthBound g.shelf) ≠ .error .endless := fun hendless =>
      hends _ (compile_eq_error_iff.mpr ⟨.endless, hendless, rfl⟩)
    rw [← fails_numberWithin_iff hdepth]
    constructor
    · rintro ⟨p, hp⟩
      obtain ⟨cause, hcause, -⟩ := compile_eq_error_iff.mp hp
      exact ⟨cause, hcause⟩
    · rintro ⟨cause, hcause⟩
      exact ⟨_, compile_eq_error_iff.mpr ⟨cause, hcause, rfl⟩⟩
  · obtain ⟨cause, -, rfl⟩ := compile_eq_error_iff.mp hp
    exact ⟨cause, rfl⟩

/-! ### Malformed modes -/

theorem fails_of_isNone {ε α : Type} {x : Except ε α} (h : x.toOption.isNone) : Fails x := by
  cases x with
  | error e => exact fails_error e
  | ok v => cases h

/-- A mode whose end is no pattern follows a variant of a mode, which stands in a slot. -/
def hidden : Grammar where
  root := { contains := some [.late 0] }
  shelf := {
    modes := #[{ beginPattern := some "a", variants := some [1] }, { starts := some 2 },
      { endPattern := some "(" }]
    slots := #[some 0] }

/-- A mode whose end is no pattern follows the root. -/
def trailing : Grammar where
  root := { starts := some 0 }
  shelf := { modes := #[{ endPattern := some "(" }] }

theorem invalid_paren : Engine.Invalid Regex.Tried (Pattern.flagged "(" false) :=
  fails_of_isNone (by decide +kernel)

theorem exists_compile_trailing :
    ∃ l : Language Regex.Tried, compile trailing "t" = .ok l := exists_of_isOk (by decide +kernel)

/-- The mode behind the slot is met, so that the grammar is rejected. The one that follows the root
has no end where it is met, so no mode of that grammar is malformed. -/
theorem compile_rejects_hidden :
    ((∀ shown, (compile hidden "t" : Except Problem (Language Regex.Tried)) ≠
        .error (.grammar shown .endless)) ∧
      ∃ cause, (compile hidden "t" : Except Problem (Language Regex.Tried)) =
        .error (.grammar "t" cause)) ∧
    (∀ shown, (compile trailing "t" : Except Problem (Language Regex.Tried)) ≠
        .error (.grammar shown .endless)) ∧ ¬ Flawed trailing Regex.Tried := by
  have hgrounded : hidden.shelf.Grounded := Shelf.grounded_of_forall (fun _ => 0) (by decide +kernel)
  have hends : ∀ shown, (compile hidden "t" : Except Problem (Language Regex.Tried)) ≠
      .error (.grammar shown .endless) := (compile_ends hgrounded).1 "t"
  have hflawed : Flawed hidden Regex.Tried := by
    have hvariant : Met hidden [] ((hidden.shelf.mode 0).merge (hidden.shelf.mode 1)) (some "") :=
      .inside (p := (0, some 0)) .root
        (.child (c := .late 0) List.mem_cons_self List.mem_cons_self rfl) rfl
    have hnext : Met hidden [] (hidden.shelf.mode 2) (some "") :=
      .inside hvariant (.next rfl rfl) rfl
    exact ⟨[], _, _, .nil, hnext, .fields (.ending rfl invalid_paren)⟩
  obtain ⟨l, hl⟩ := exists_compile_trailing
  have hends' : ∀ shown, (compile trailing "t" : Except Problem (Language Regex.Tried)) ≠
      .error (.grammar shown .endless) := by
    intro shown he
    rw [hl] at he
    cases he
  obtain ⟨hrejects, -, hname⟩ := compile_rejects (ρ := Regex.Tried) hidden "t"
  obtain ⟨p, hp⟩ := (hrejects hends).mpr (Or.inr hflawed)
  obtain ⟨cause, rfl⟩ := hname p hp
  refine ⟨⟨hends, cause, hp⟩, hends', fun hbad => ?_⟩
  have hfails := ((compile_rejects trailing "t").1 hends').mpr (Or.inr hbad)
  rw [hl] at hfails
  exact not_fails_ok l hfails

/-- What follows the root is reached from it and has an end that is no pattern, and yet the grammar is
not rejected. -/
theorem compile_trailing : trailing.root.starts = some 0 ∧
    (trailing.shelf.mode 0).endPattern = some "(" ∧
    Engine.Invalid Regex.Tried (Pattern.flagged "(" trailing.caseInsensitive) ∧
    ¬ Fails (compile trailing "t" : Except Problem (Language Regex.Tried)) := by
  obtain ⟨l, hl⟩ := exists_compile_trailing
  rw [hl]
  exact ⟨rfl, rfl, invalid_paren, not_fails_ok l⟩

end Language

end CodeMarkup
