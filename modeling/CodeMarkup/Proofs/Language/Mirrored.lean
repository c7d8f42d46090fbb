import CodeMarkup.Proofs.Language.Linking
import CodeMarkup.Proofs.Regex.Ways

/-! # Compiled modes mirror the grammar

A compiled grammar has been numbered from the root on: first the root and all that is reached
through its children, then what follows the root (`Rooted`). Going down the grammar and the compiled
modes side by side, every compiled mode that is met, what follows the root aside, is right for the
mode of the grammar that it stands for (`Language.compile_mirrors`), also where a mode stands in
several places. -/

namespace CodeMarkup

variable {ρ : Type} [Engine ρ]

namespace Language

/-- How the modes of a language have been numbered: `c` is the arena in which all that is reached
through the children of the root is there, `b` the one in which all is. -/
structure Rooted (g : Grammar) (l : Language ρ) (c b : Arena ρ) : Prop where
  modes : l.modes = b.modes
  pos : 0 < c.modes.size
  preserves : c.Preserves b
  unchanged : ∀ {k cm}, k ≠ 0 → c.modes[k]? = some cm → b.modes[k]? = some cm
  tidy : b.Tidy
  tidy_inside : c.Tidy
  owned : c.Owned g.shelf g.caseInsensitive
  inside : ∀ k, 0 < k → k < c.modes.size → ∃ m parent cm,
    c.HasNumber g.shelf m parent k ∧ c.Linked g.shelf g.caseInsensitive k m parent cm
  linked : ∀ k, 0 < k → k < b.modes.size → ∃ m parent cm,
    b.HasNumber g.shelf m parent k ∧ b.Linked g.shelf g.caseInsensitive k m parent cm
  root : ∃ cm, b.Linked g.shelf g.caseInsensitive 0 g.root none cm ∧
    ownFields g.caseInsensitive g.root none = .ok cm.bare ∧
    List.Forall₂ (Shelf.FitsIn 0 fun source n => c.HasNumber g.shelf source (some 0) n)
      (g.shelf.expansion (g.root.contains.getD [])) cm.children

/-- A compiled grammar has been numbered from its root on. -/
theorem exists_compileRoot {g : Grammar} {name : String} {l : Language ρ}
    (h : compile g name = .ok l) : ∃ id b, compileRoot g {} = .ok (id, b) ∧ l.modes = b.modes := by
  unfold compile at h
  dsimp only at h
  split at h
  · cases h
  · next id b hroot =>
    split at h
    · cases h
      exact ⟨id, b, hroot, rfl⟩
    · cases h

/-- A grammar that has been numbered from its root on is compiled. -/
theorem exists_compile_of_root {g : Grammar} {id : Nat} {b : Arena ρ}
    (h : compileRoot g {} = .ok (id, b)) (hpos : 0 < b.modes.size) (name : String) :
    ∃ l : Language ρ, compile g name = .ok l ∧ l.modes = b.modes := by
  have hrun : (compileRoot g).run {} = .ok (id, b) := h
  unfold compile
  rw [hrun]
  simp only [dif_pos hpos]
  exact ⟨_, rfl, rfl⟩

theorem of_compile {g : Grammar} {name : String} {l : Language ρ} (h : compile g name = .ok l) :
    ∃ depth id b, numberNew g.shelf (compileMode g.shelf g.caseInsensitive depth) g.caseInsensitive
      g.root none none {} = .ok (id, b) ∧ l.modes = b.modes := by
  obtain ⟨id, b, hroot, hmodes⟩ := exists_compileRoot h
  unfold compileRoot at hroot
  by_cases hself : (g.root.contains.getD []).contains .self
  · simp only [hself, if_true] at hroot
    cases hroot
  · simp only [hself] at hroot
    obtain ⟨depth, hdepth⟩ : ∃ depth, depthBound g.shelf = depth + 1 :=
      Nat.exists_eq_succ_of_ne_zero (Nat.pos_iff_ne_zero.mp (Nat.pow_pos (by omega)))
    change compileMode g.shelf g.caseInsensitive (depthBound g.shelf) g.root none none {} = _ at hroot
    rw [hdepth, compileMode_succ] at hroot
    exact ⟨depth, id, b, hroot, hmodes⟩

theorem not_self_mem_root {g : Grammar} {name : String} {l : Language ρ}
    (h : compile g name = .ok l) : .self ∉ g.root.contains.getD [] := by
  intro hself
  unfold compile compileRoot at h
  have hcontains : (g.root.contains.getD []).contains .self := List.contains_iff_mem.mpr hself
  simp only [hcontains, if_true] at h
  cases h

/-- **A compiled grammar has been numbered from the root on.** -/
theorem exists_rooted {g : Grammar} {name : String} {l : Language ρ}
    (h : compile g name = .ok l) : ∃ c b, Rooted g l c b := by
  obtain ⟨depth, id, b, hnew, hmodes⟩ := of_compile h
  obtain ⟨own, children, c, starts, d, matcher, rfl, hown, hchildren, hstarts, hmatcher, rfl⟩ :=
    of_numberNew hnew
  have hcompile : Numbers (ρ := ρ) g.shelf g.caseInsensitive
      (compileMode g.shelf g.caseInsensitive depth) := numbers_compileMode depth
  have hunknown : ∀ i, (({} : Arena ρ).add own none).number? i = none := fun _ => rfl
  have htidy : (({} : Arena ρ).add own none).Tidy := by
    constructor <;> intros <;> simp_all
  obtain ⟨hran, hfilled, hfits, howned⟩ := ran_childIds hcompile hchildren htidy Nat.zero_lt_one
  have hc : 0 < c.modes.size :=
    Nat.lt_of_lt_of_le Nat.zero_lt_one hran.extends_.preserves.size_le
  obtain ⟨hran', hrel, -⟩ := ran_followIds hcompile hstarts hran.tidy hc fun p hp => nomatch hp
  have hd := Nat.lt_of_lt_of_le hc hran'.extends_.preserves.size_le
  obtain ⟨cm, hlinked⟩ := linked_link hran'.tidy hd hfilled
    (Arena.fits_mono hran'.extends_.known hfits) hrel hmatcher
  have hlink := Arena.preserves_link d 0 children starts matcher
  -- following what the root leads to leaves its own fields as they were made
  have hcm : cm = { own with children, starts, matcher } := by
    have hroot := hran'.extends_.modes (hran.extends_.modes (Arena.getElem?_add_size _ own none))
    have hfound := hlinked.found
    rw [Arena.getElem?_link_self] at hfound
    change d.modes[0]? = _ at hroot
    rw [hroot] at hfound
    exact (Option.some.inj hfound).symm
  refine ⟨c, _, {
    modes := hmodes
    pos := hc
    preserves := hran'.extends_.preserves.trans hlink
    unchanged := fun hk hcm =>
      (Arena.getElem?_link_ne d hk ..).trans (hran'.extends_.modes hcm)
    tidy := hran'.tidy.link ..
    tidy_inside := hran.tidy
    owned := howned (Arena.owned_of_unknown hunknown)
    inside := fun k hk hlt => hran.linked k hk hlt
    linked := fun k hk hlt => ?_
    root := ⟨cm, hlinked, ?_, ?_⟩ }⟩
  · rw [Arena.size_link] at hlt
    obtain ⟨m, parent, cm', hn, hl⟩ := (hran.trans hran').linked k hk hlt
    exact ⟨m, parent, cm', hn, hl.mono hran'.tidy hlink
      ((Arena.getElem?_link_ne d (Nat.ne_of_gt hk) ..).trans hl.found)⟩
  · rw [hcm]
    have hb := (of_ownFields hown).bare
    change own.bare = own at hb
    change _ = Except.ok own.bare
    rw [hb]
    exact hown
  · rw [hcm]
    exact hfits

section Mirror

variable {g : Grammar} {l : Language ρ} {c b : Arena ρ}

/-- What is known of a compiled mode that stands for a mode inside another one. -/
def StandsIn (g : Grammar) (c : Arena ρ) (id : Nat) (m : Mode) : Option Nat → Prop
  | none => id = 0 ∧ m = g.root
  | some p => p < c.modes.size ∧ c.HasNumber g.shelf m (some p) id

theorem Rooted.mode? (hr : Rooted g l c b) (id : Nat) : l.mode? id = b.modes[id]? := by
  rw [Language.mode?, hr.modes]

theorem Rooted.mode (hr : Rooted g l c b) {id : Nat} {cm : CompiledMode ρ}
    (h : b.modes[id]? = some cm) : l.mode id = cm := by
  rw [Language.mode, hr.mode?, h, Option.getD_some]

/-- The links of a mode, seen from any parent inside of which it stands. -/
theorem Rooted.linked_inside (hr : Rooted g l c b) {id p : Nat} {m : Mode}
    (hn : c.HasNumber g.shelf m (some p) id) : ∃ cm,
      c.Linked g.shelf g.caseInsensitive id m (some p) cm ∧ b.modes[id]? = some cm := by
  obtain ⟨i, hi, hnum⟩ := hn
  have hpos := hr.tidy_inside.pos hnum
  obtain ⟨m', parent, cm, ⟨j, hj, hnum'⟩, hl⟩ := hr.inside id hpos (hr.tidy_inside.lt hnum)
  obtain rfl := hr.tidy_inside.inj hnum hnum'
  obtain rfl := hi.mode_eq hj
  refine ⟨cm, { hl with starts := ?_ }, hr.unchanged (Nat.ne_of_gt hpos) hl.found⟩
  have hs := hl.starts
  cases hk : m.starts with
  | none =>
    rw [hk] at hs
    cases hstarts : cm.starts with
    | none => exact .none
    | some n => rw [hstarts] at hs; cases hs
  | some key =>
    rw [hk] at hs
    cases hstarts : cm.starts with
    | none => rw [hstarts] at hs; cases hs
    | some n =>
      rw [hstarts] at hs
      cases hs with
      | some hn =>
        rw [hj.identity_starts hi hk] at hn
        exact .some hn

theorem getElem?_of_forall₂ {α β : Type} {R : α → β → Prop} : ∀ {xs : List α} {ys : List β} {n : Nat}
    {x : α} {y : β}, List.Forall₂ R xs ys → xs[n]? = some x → ys[n]? = some y → R x y
  | _, _, 0, _, _, .cons h _, hx, hy => by
    cases hx
    cases hy
    exact h
  | _, _, n + 1, _, _, .cons _ h, hx, hy => getElem?_of_forall₂ h hx hy

theorem Rooted.standsIn (hr : Rooted g l c b) {id : Nat} {m : Mode} {around : Option Nat}
    (h : Stands g l id m around) : StandsIn g c id m around := by
  induction h with
  | root => exact ⟨rfl, rfl⟩
  | @child id m around cm n source k _ hcm hsource hk ih =>
    rw [hr.mode?] at hcm
    cases around with
    | none =>
      obtain ⟨rfl, rfl⟩ := ih
      obtain ⟨cm', hl, -, hfits⟩ := hr.root
      obtain rfl := Option.some.inj (hcm.symm.trans hl.found)
      have hfit := getElem?_of_forall₂ hfits hsource hk
      exact ⟨hr.pos, hfit⟩
    | some p =>
      obtain ⟨cm', hl, hb⟩ := hr.linked_inside ih.2
      obtain rfl := Option.some.inj (hcm.symm.trans hb)
      have hfit := getElem?_of_forall₂ hl.children hsource hk
      exact ⟨Arena.lt_size hl.found, hfit⟩
  | @next id m p cm key n _ hcm hkey hn ih =>
    rw [hr.mode?] at hcm
    obtain ⟨cm', hl, hb⟩ := hr.linked_inside ih.2
    obtain rfl := Option.some.inj (hcm.symm.trans hb)
    have hs := hl.starts
    rw [hkey, hn] at hs
    cases hs with
    | some hn => exact ⟨ih.1, _, identifies_none g.shelf key (some p), hn⟩

/-- A compiled mode that stands for a mode inside another one has the fields that it has there. -/
theorem Rooted.own (hr : Rooted g l c b) {id p : Nat} {m : Mode} {cm : CompiledMode ρ}
    (hp : p < c.modes.size) (hn : c.HasNumber g.shelf m (some p) id)
    (hcm : b.modes[id]? = some cm) :
    ownFields g.caseInsensitive m (some (l.mode p).terminator) = .ok cm.bare := by
  obtain ⟨i, hi, hnum⟩ := hn
  obtain ⟨own, hown, hfields⟩ := hr.owned i id hnum
  obtain rfl : own = cm := Option.some.inj
    ((hr.unchanged (Nat.ne_of_gt (hr.tidy_inside.pos hnum)) hown).symm.trans hcm)
  obtain ⟨around, haround⟩ := Arena.exists_getElem? (Nat.lt_of_lt_of_le hp hr.preserves.size_le)
  have hterminator : (l.mode p).terminator = c.terminator p := by
    rw [hr.mode haround, ← hr.preserves.terminator hp, Arena.terminator, haround]
    rfl
  obtain ⟨key, variant, hv, rfl⟩ := hi
  exact hfields m hv _ fun hd =>
    ⟨p, Identifies.parent_eq ⟨key, variant, hv, rfl⟩ hd, hterminator⟩

/-- The rules that an arena has for a mode are those of the language. -/
theorem Rooted.rules (hr : Rooted g l c b) {id : Nat} {m : Mode} {parent : Option Nat}
    {cm : CompiledMode ρ} (h : b.Linked g.shelf g.caseInsensitive id m parent cm) :
    cm.matcher.sources = l.rulesOf cm := by
  have hbegins : cm.children.map (fun n =>
      (RuleKind.begins n, (b.modes[n]?.map (·.beginPattern)).getD "")) =
      cm.children.map fun n => (RuleKind.begins n, (l.mode n).beginPattern) := by
    refine List.map_congr_left fun n hn => ?_
    obtain ⟨child, hchild⟩ := Arena.exists_getElem? (h.lt hr.tidy n hn)
    rw [hr.mode hchild, hchild]
    rfl
  rw [h.rules, Arena.rules, h.found]
  dsimp only
  rw [hbegins, rulesOf]

/-- Where every child has its place in an expansion and stands for what is there, all fit. -/
theorem forall₂_stands {id : Nat} {m : Mode} {around : Option Nat} {cm : CompiledMode ρ}
    (hm : Stands g l id m around) (hcm : l.mode? id = some cm)
    (h : List.Forall₂ (Shelf.FitsIn id fun source n => c.HasNumber g.shelf source (some id) n)
      (g.shelf.expansion (m.contains.getD [])) cm.children) :
    List.Forall₂ (Shelf.FitsIn id fun source n => Stands g l n source (some id))
      (g.shelf.expansion (m.contains.getD [])) cm.children := by
  rw [List.forall₂_iff_get] at h ⊢
  refine ⟨h.1, fun n hx hy => ?_⟩
  have hfit := h.2 n hx hy
  have hsource := List.getElem?_eq_getElem hx
  have hchild := List.getElem?_eq_getElem hy
  simp only [List.get_eq_getElem] at hfit ⊢
  generalize (g.shelf.expansion (m.contains.getD []))[n] = source at hfit hsource ⊢
  cases source with
  | none => exact hfit
  | some source => exact .child hm hcm hsource hchild

theorem Rooted.mirrors (hr : Rooted g l c b) {id : Nat} {m : Mode} {around : Option Nat}
    (h : Stands g l id m around) : ∃ cm, Mirrors g l id m around cm := by
  have hin := hr.standsIn h
  cases around with
  | none =>
    obtain ⟨rfl, rfl⟩ := hin
    obtain ⟨cm, hl, hown, hfits⟩ := hr.root
    have hcm := (hr.mode? 0).trans hl.found
    exact ⟨cm, {
      found := hcm
      own := hown
      filled := hl.filled
      children := forall₂_stands h hcm hfits
      starts := hl.isSome_starts
      rules := hr.rules hl
      foldCase := hl.foldCase }⟩
  | some p =>
    obtain ⟨cm, hl, hb⟩ := hr.linked_inside hin.2
    have hcm := (hr.mode? id).trans hb
    exact ⟨cm, {
      found := hcm
      own := hr.own hin.1 hin.2 hb
      filled := hl.filled
      children := forall₂_stands h hcm hl.children
      starts := hl.isSome_starts
      rules := hr.rules (hl.mono hr.tidy_inside hr.preserves hb)
      foldCase := hl.foldCase }⟩

/-- Every number that is reached is that of a mode that stands for something. -/
theorem Rooted.stands_of_reached (hr : Rooted g l c b) {id : Nat} (h : l.Reached id) :
    ∃ m around, Stands g l id m around := by
  induction h with
  | root => exact ⟨_, _, .root⟩
  | @child id cm n _ hcm hn ih =>
    obtain ⟨m, around, hm⟩ := ih
    obtain ⟨cm', hmirror⟩ := hr.mirrors hm
    obtain rfl := Option.some.inj (hcm.symm.trans hmirror.found)
    obtain ⟨k, hk, rfl⟩ := List.getElem_of_mem hn
    obtain ⟨hlen, hfits⟩ := List.forall₂_iff_get.mp hmirror.children
    have hfit := hfits k (hlen ▸ hk) hk
    generalize (g.shelf.expansion (m.contains.getD [])).get ⟨k, hlen ▸ hk⟩ = source at hfit
    cases source with
    | none => exact ⟨m, around, (show cm.children[k] = id from hfit) ▸ hm⟩
    | some source => exact ⟨source, some id, hfit⟩
  | @next id cm n _ hne hcm hn ih =>
    obtain ⟨m, around, hm⟩ := ih
    obtain ⟨cm', hmirror⟩ := hr.mirrors hm
    obtain rfl := Option.some.inj (hcm.symm.trans hmirror.found)
    have hstarts := hmirror.starts
    rw [hn, Option.isSome_some] at hstarts
    obtain ⟨key, hkey⟩ := Option.isSome_iff_exists.mp hstarts.symm
    cases around with
    | none => exact absurd (hr.standsIn hm).1 hne
    | some p => exact ⟨_, _, .next hm hcm hkey hn⟩

end Mirror

/-- **A compiled grammar mirrors the grammar.** Every mode that is reached, what follows the root
aside, stands for a mode of the grammar, and in every place where a compiled mode stands it has the
fields, the children and the rules that the mode of the grammar has there. -/
theorem compile_mirrors {g : Grammar} {name : String} {l : Language ρ}
    (h : compile g name = .ok l) :
    (∀ id, l.Reached id → ∃ m around, Stands g l id m around) ∧
      ∀ id m around, Stands g l id m around → ∃ cm, Mirrors g l id m around cm := by
  obtain ⟨c, b, hr⟩ := exists_rooted h
  exact ⟨fun _ hid => hr.stands_of_reached hid, fun _ _ _ hm => hr.mirrors hm⟩

/-- Two modes that contain a third one, which also ends with the mode around it. -/
def sharing : Grammar where
  root := { contains := some [.mode 1, .mode 2] }
  shelf := { modes := #[
    { beginPattern := some "s", endsWithParent := some true },
    { beginPattern := some "a", endPattern := some "x", contains := some [.mode 0] },
    { beginPattern := some "b", endPattern := some "y", contains := some [.mode 0] }] }

/-- The third mode ends in each of the others where that one ends. -/
theorem compile_mirrors_sharing : ∃ l : Language Regex.Tried, compile sharing "t" = .ok l ∧
    (∃ cm, Mirrors sharing l 2 (sharing.shelf.mode 0) (some 1) cm ∧ cm.terminator = "x") ∧
    ∃ cm, Mirrors sharing l 4 (sharing.shelf.mode 0) (some 3) cm ∧ cm.terminator = "y" := by
  have hc : ((compile sharing "t" : Except Problem (Language Regex.Tried)).toOption.map fun l =>
      l.modes.toList.map fun cm => (cm.children, cm.terminator)) =
      some [([1, 3], ""), ([2], "x"), ([], "x"), ([4], "y"), ([], "y")] := by decide +kernel
  cases hl : (compile sharing "t" : Except Problem (Language Regex.Tried)) with
  | error p => rw [hl] at hc; cases hc
  | ok l =>
    rw [hl] at hc
    have hmode : ∀ id children terminator,
        [([1, 3], ""), ([2], "x"), ([], "x"), ([4], "y"), ([], "y")][id]? = some (children, terminator) →
        ∃ cm, l.mode? id = some cm ∧ cm.children = children ∧ cm.terminator = terminator := by
      intro id children terminator h
      rw [← Option.some.inj hc, List.getElem?_map, Array.getElem?_toList] at h
      obtain ⟨cm, hcm, he⟩ := Option.map_eq_some_iff.mp h
      cases he
      exact ⟨cm, hcm, rfl, rfl⟩
    obtain ⟨root, hroot, hchildren, -⟩ := hmode 0 _ _ rfl
    obtain ⟨first, hfirst, hin, -⟩ := hmode 1 _ _ rfl
    obtain ⟨second, hsecond, hin', -⟩ := hmode 3 _ _ rfl
    have hone : Stands sharing l 1 (sharing.shelf.mode 1) (some 0) :=
      .child (n := 0) .root hroot rfl (by rw [hchildren]; rfl)
    have hthree : Stands sharing l 3 (sharing.shelf.mode 2) (some 0) :=
      .child (n := 1) .root hroot rfl (by rw [hchildren]; rfl)
    obtain ⟨-, hmirrors⟩ := compile_mirrors hl
    obtain ⟨cm, hcm⟩ := hmirrors 2 _ _ (.child (n := 0) hone hfirst rfl (by rw [hin]; rfl))
    obtain ⟨cm', hcm'⟩ := hmirrors 4 _ _ (.child (n := 0) hthree hsecond rfl (by rw [hin']; rfl))
    obtain ⟨_, hfound, -, hx⟩ := hmode 2 _ _ rfl
    obtain ⟨_, hfound', -, hy⟩ := hmode 4 _ _ rfl
    obtain rfl := Option.some.inj (hcm.found.symm.trans hfound)
    obtain rfl := Option.some.inj (hcm'.found.symm.trans hfound')
    exact ⟨l, rfl, ⟨_, hcm, hx⟩, _, hcm', hy⟩

end Language

end CodeMarkup
