import CodeMarkup.Proofs.Language.Calls
import CodeMarkup.Proofs.Language.Mirrored
import CodeMarkup.Proofs.Language.Registered
import Mathlib

/-! # Compiling ends

Modes are followed as deep as `depthBound` says. On a grounded shelf this is deep enough. What is
still to be followed at a place is bounded by its `cost`: it counts the places that have not been
met and whose modes do not depend on the mode around them, and how far ways go on over modes that
do. It falls from a place to all places that it leads to (`cost_lt`), so numbering modes never
breaks off for want of depth, and following modes deeper changes nothing (`agrees_number`). -/

namespace CodeMarkup

variable {ρ : Type} [Engine ρ]

namespace Language

/-! ### Failures -/

section Failures

variable {α β : Type}

theorem bind_ne_endless {x : Except GrammarProblem α} {f : α → Except GrammarProblem β}
    (hx : x ≠ .error .endless) (hf : ∀ v, f v ≠ .error .endless) : x >>= f ≠ .error .endless := by
  cases x with
  | error cause =>
    intro h
    exact hx (congrArg Except.error (Except.error.inj h))
  | ok v => exact hf v

theorem mapM_ne_endless {f : α → Except GrammarProblem β} (hf : ∀ v, f v ≠ .error .endless) :
    ∀ vs : List α, vs.mapM f ≠ .error .endless
  | [] => nofun
  | v :: vs => by
    rw [List.mapM_cons]
    exact bind_ne_endless (hf v) fun _ => bind_ne_endless (mapM_ne_endless hf vs) fun _ => nofun

theorem option_mapM_ne_endless {f : α → Except GrammarProblem β} (hf : ∀ v, f v ≠ .error .endless) :
    ∀ v : Option α, v.mapM f ≠ .error .endless
  | none => nofun
  | some v => by
    rw [Option.mapM_some]
    exact bind_ne_endless (hf v) fun _ => nofun

theorem prepare_ne_endless (foldCase : Bool) (source : String) :
    (prepare foldCase source : Except GrammarProblem (Prepared ρ)) ≠ .error .endless := by
  unfold prepare
  split <;> simp

theorem keywordTable_ne_endless (foldCase : Bool) (k : Keywords) :
    KeywordTable.compile foldCase k ≠ .error .endless := by
  refine bind_ne_endless (mapM_ne_endless (fun (category, word) => ?_) _) fun _ => nofun
  unfold KeywordTable.entry
  dsimp only
  split <;> simp

/-- The fields of a mode may be refused, but never for want of depth. -/
theorem ownFields_ne_endless (foldCase : Bool) (m : Mode) (terminator : Option String) :
    (ownFields foldCase m terminator : Except GrammarProblem (CompiledMode ρ)) ≠
      .error .endless := by
  have hwritten : writtenBegin m ≠ .error .endless := by
    unfold writtenBegin
    split
    · simp
    · split <;> simp
  have hsource : ∀ keywords, wordSource m keywords ≠ .error .endless := by
    intro keywords
    unfold wordSource
    split <;> simp
  have hprepare := prepare_ne_endless (ρ := ρ) foldCase
  unfold ownFields
  refine bind_ne_endless hwritten fun written => ?_
  refine bind_ne_endless (hsource _) fun source => ?_
  refine bind_ne_endless (hprepare source) fun keywordPattern => ?_
  refine bind_ne_endless (option_mapM_ne_endless (keywordTable_ne_endless foldCase) _)
    fun keywords => ?_
  exact bind_ne_endless (option_mapM_ne_endless hprepare _) fun endRegex => nofun

theorem ofRules_ne_endless (rules : List (RuleKind × String)) (foldCase : Bool) :
    (Matcher.ofRules rules foldCase : Except GrammarProblem (Matcher ρ)) ≠ .error .endless := by
  have hcheck : ∀ rule : RuleKind × String,
      Matcher.check ρ rule.1 rule.2 ≠ .error .endless := by
    intro rule
    unfold Matcher.check
    split <;> simp
  refine bind_ne_endless (mapM_ne_endless hcheck rules) fun checked => ?_
  dsimp only
  split
  · nofun
  · split
    · nofun
    · simp [throw, throwThe, MonadExceptOf.throw]

end Failures

/-! ### Agreement -/

section Agreement

variable {α β : Type} {a b : Arena ρ}

/-- Whether two ways to do something come to the same from an arena on, and do not break off for
want of depth. -/
structure Agrees (x x' : Compiling ρ α) (a : Arena ρ) : Prop where
  eq : x a = x' a
  ends : x a ≠ .error .endless

theorem Agrees.bind {x x' : Compiling ρ α} {f f' : α → Compiling ρ β} (h : Agrees x x' a)
    (hf : ∀ v b, x a = .ok (v, b) → Agrees (f v) (f' v) b) : Agrees (x >>= f) (x' >>= f') a := by
  have heq := h.eq
  have hends := h.ends
  constructor
  · change (x a >>= fun p => f p.1 p.2) = (x' a >>= fun p => f' p.1 p.2)
    rw [← heq]
    cases hx : x a with
    | error cause => rfl
    | ok p => exact (hf p.1 p.2 hx).eq
  · change (x a >>= fun p => f p.1 p.2) ≠ _
    cases hx : x a with
    | error cause =>
      intro h
      exact hends (hx.trans (congrArg Except.error (Except.error.inj h)))
    | ok p => exact (hf p.1 p.2 hx).ends

theorem agrees_pure (v : α) : Agrees (ρ := ρ) (pure v) (pure v) a := ⟨rfl, nofun⟩

theorem agrees_linkNew (foldCase : Bool) (m : Mode) (id : Nat) (ids : List Nat) :
    Agrees (linkNew foldCase m id ids) (linkNew foldCase m id ids) a := by
  refine ⟨rfl, ?_⟩
  have hlink : ∀ children starts, linkTo foldCase id children starts a ≠ .error .endless := by
    intro children starts
    have hrules := ofRules_ne_endless (ρ := ρ) (a.rules id children) foldCase
    change ((Matcher.ofRules (a.rules id children) foldCase >>= fun matcher =>
      pure (matcher, a)) >>= fun p => (_ : Compiling ρ Nat) p.2) ≠ _
    exact bind_ne_endless (bind_ne_endless hrules fun _ => nofun) fun _ => nofun
  unfold linkNew
  split
  · exact hlink _ _
  · exact hlink _ _

variable {shelf : Shelf} {N N' : Numbering ρ}

/-- Whether two ways to number modes agree on what is asked for, also in their calls. -/
structure AgreesOn (shelf : Shelf) (N N' : Numbering ρ) (r : Request) (a : Arena ρ) : Prop where
  answer : Agrees (answer shelf N.run r) (answer shelf N'.run r) a
  calls : r.calls shelf N a = r.calls shelf N' a

/-- Only what numbers a mode has to be agreed on. -/
theorem agreesOn_of_number {m : Mode} {r : Request} (hr : r.IsFor shelf m)
    (h : ∀ p source parent, r = .number p source parent → p ∈ shelf.leadsTo m →
      shelf.variant? p.1 p.2 = some source → AgreesOn shelf N N' r a) :
    AgreesOn shelf N N' r a := by
  cases r with
  | own id => exact ⟨agrees_pure id, rfl⟩
  | refuse cause =>
    refine ⟨⟨rfl, fun he => ?_⟩, rfl⟩
    exact hr (Except.error.inj he)
  | number p source parent => exact h p source parent rfl hr.1 hr.2

/-- Two ways to number modes agree on requests if they agree on each of them as long as what is
known grows. -/
theorem agrees_callsAlong (hN : N.Accounted shelf) {m : Mode} : ∀ (rs : List Request) (a : Arena ρ),
    (∀ r ∈ rs, r.IsFor shelf m) →
    (∀ r ∈ rs, ∀ b : Arena ρ, (∀ i, b.number? i = none → a.number? i = none) →
      AgreesOn shelf N N' r b) →
    Agrees (rs.mapM (answer shelf N.run)) (rs.mapM (answer shelf N'.run)) a ∧
      callsAlong shelf N rs a = callsAlong shelf N' rs a
  | [], a, _, _ => ⟨agrees_pure [], rfl⟩
  | r :: rs, a, hrs, h => by
    obtain ⟨hr, hrs⟩ := List.forall_mem_cons.mp hrs
    obtain ⟨hhead, htail⟩ := List.forall_mem_cons.mp h
    have hfirst : AgreesOn shelf N N' r a := hhead a fun _ hi => hi
    have hrest : ∀ id b, answer shelf N.run r a = .ok (id, b) →
        Agrees (rs.mapM (answer shelf N.run)) (rs.mapM (answer shelf N'.run)) b ∧
          callsAlong shelf N rs b = callsAlong shelf N' rs b := by
      intro id b hb
      have hknown := (accounts_answer hN hr a).known id b hb
      refine agrees_callsAlong hN rs b hrs fun r' hr' c hc => htail r' hr' c fun i hi => ?_
      exact ((hknown i).mp (hc i hi)).1
    constructor
    · rw [List.mapM_cons, List.mapM_cons]
      exact hfirst.answer.bind fun id b hb => (hrest id b hb).1.bind fun ids _ _ => agrees_pure _
    · rw [callsAlong, callsAlong, hfirst.calls, ← hfirst.answer.eq]
      cases hb : answer shelf N.run r a with
      | error cause => rfl
      | ok p => rw [callsAfter, callsAfter, (hrest p.1 p.2 hb).2]

/-- A new mode is numbered in the same way, however deep modes are followed, where this is so for
all links of it. -/
theorem agrees_new {foldCase : Bool} {depth depth' : Nat} {m : Mode} {i : Option Identity}
    {parent : Option Nat} (hnew : i.bind a.number? = none)
    (h : ∀ own b, (∀ j, b.number? j = none → (a.add own i).number? j = none) →
      ∀ r ∈ requests shelf a.modes.size m parent,
        AgreesOn shelf (numbering ρ shelf foldCase depth) (numbering ρ shelf foldCase depth') r b) :
    Agrees (compileMode shelf foldCase (depth + 1) m i parent)
      (compileMode shelf foldCase (depth' + 1) m i parent) a ∧
    calls shelf foldCase (depth + 1) m i parent a =
      calls shelf foldCase (depth' + 1) m i parent a := by
  have hown := ownFields_ne_endless (ρ := ρ) foldCase m (parent.map a.terminator)
  have hrun : ∀ depth, compileMode shelf foldCase (depth + 1) m i parent a =
      numberNew shelf (compileMode shelf foldCase depth) foldCase m i parent a := by
    intro depth
    rw [compileMode_succ, hnew]
  rw [calls, calls, hnew]
  cases hfields : (ownFields foldCase m (parent.map a.terminator) :
      Except GrammarProblem (CompiledMode ρ)) with
  | error cause =>
    rw [hfields] at hown
    refine ⟨⟨?_, ?_⟩, rfl⟩
    · rw [hrun, hrun, numberNew_apply, numberNew_apply, hfields]
    · rw [hrun, numberNew_apply, hfields]
      exact fun he => hown (congrArg Except.error (Except.error.inj he))
  | ok own =>
    obtain ⟨hanswers, hcalls⟩ := agrees_callsAlong (accounted_numbering shelf foldCase depth) _ _
      (isFor_requests shelf) fun r hr b hb => h own b hb r hr
    have hagrees := hanswers.bind fun ids b _ => agrees_linkNew foldCase m a.modes.size ids
    refine ⟨⟨?_, ?_⟩, congrArg (⟨i, true⟩ :: ·) hcalls⟩
    · rw [hrun, hrun, numberNew_apply, numberNew_apply, hfields]
      exact hagrees.eq
    · rw [hrun, numberNew_apply, hfields]
      exact hagrees.ends

end Agreement

/-! ### Costs -/

section Costs

variable {shelf : Shelf}

/-- The places that have not been met and whose modes do not depend on the mode around them. -/
def unmet (shelf : Shelf) (a : Arena ρ) : Finset Shelf.Place :=
  shelf.places.toFinset.filter fun p =>
    shelf.dependsAt p = false ∧ a.number? ⟨p.1, p.2, none⟩ = none

/-- How deep modes may have to be followed from a place on. -/
def cost (shelf : Shelf) (rank : Shelf.Place → Nat) (a : Arena ρ) (p : Shelf.Place) : Nat :=
  (unmet shelf a).card * (shelf.places.length + 2) + if shelf.dependsAt p then rank p + 1 else 0

theorem card_unmet_le (a : Arena ρ) : (unmet shelf a).card ≤ shelf.places.length :=
  (Finset.card_filter_le _ _).trans (List.toFinset_card_le _)

theorem unmet_subset {a b : Arena ρ} (h : ∀ i, b.number? i = none → a.number? i = none) :
    unmet shelf b ⊆ unmet shelf a := by
  intro p hp
  obtain ⟨hplace, hdep, hb⟩ := Finset.mem_filter.mp hp
  exact Finset.mem_filter.mpr ⟨hplace, hdep, h _ hb⟩

theorem cost_le {rank : Shelf.Place → Nat} (hrank : ∀ p, rank p ≤ shelf.places.length)
    (a : Arena ρ) (p : Shelf.Place) :
    cost shelf rank a p < ((unmet shelf a).card + 1) * (shelf.places.length + 2) := by
  have hp := hrank p
  rw [cost, Nat.succ_mul]
  split <;> omega

/-- **The cost falls from a place to all that it leads to**, once its mode is known. -/
theorem cost_lt {rank : Shelf.Place → Nat} (hrank : ∀ p, rank p ≤ shelf.places.length)
    (hfalls : ∀ {p q}, shelf.Leads p q → shelf.dependsAt p = true → shelf.dependsAt q = true →
      rank q < rank p)
    {around m : Mode} {p q : Shelf.Place} {parent : Option Nat} {own : CompiledMode ρ}
    {a b : Arena ρ}
    (hp : p ∈ shelf.leadsTo around) (hm : shelf.variant? p.1 p.2 = some m)
    (hnew : a.number? (identity shelf p.1 p.2 m parent) = none) (hq : q ∈ shelf.leadsTo m)
    (hb : ∀ i, b.number? i = none →
      (a.add own (some (identity shelf p.1 p.2 m parent))).number? i = none) :
    cost shelf rank b q < cost shelf rank a p := by
  have hadd := fun i => a.number?_add own (some (identity shelf p.1 p.2 m parent)) i
  have hknown : ∀ i, b.number? i = none →
      a.number? i = none ∧ i ≠ identity shelf p.1 p.2 m parent := by
    intro i hi
    have h := hb i hi
    rw [hadd] at h
    split at h
    · cases h
    · next hne => exact ⟨h, fun he => hne (congrArg some he.symm)⟩
  have hsubset : unmet shelf b ⊆ unmet shelf a := unmet_subset fun i hi => (hknown i hi).1
  have hcard := Finset.card_le_card hsubset
  -- either the rank falls and no more modes are unmet, or one that was unmet is met
  cases hdep : shelf.dependsAt p with
  | true =>
    have hmul : (unmet shelf b).card * (shelf.places.length + 2) ≤
        (unmet shelf a).card * (shelf.places.length + 2) := Nat.mul_le_mul_right _ hcard
    have hnext : shelf.dependsAt q = true → rank q < rank p := hfalls ⟨m, hm, hq⟩ hdep
    unfold cost
    rw [hdep]
    split
    · next hdepq =>
      have := hnext hdepq
      simp only [if_true]
      omega
    · simp only [if_true]
      omega
  | false =>
    -- a mode off the shelf leads nowhere
    have hplace : p ∈ shelf.places := by
      refine Shelf.mem_places_of_mem_leadsTo hp (Nat.lt_of_not_le fun hkey => ?_)
      rw [Shelf.eq_of_variant?_outside hm hkey] at hq
      cases hq
    have hidentity : identity shelf p.1 p.2 m parent = ⟨p.1, p.2, none⟩ := by
      rw [Shelf.dependsAt_eq hm] at hdep
      rw [identity, hdep]
      rfl
    have hmem : p ∈ unmet shelf a :=
      Finset.mem_filter.mpr ⟨List.mem_toFinset.mpr hplace, hdep, hidentity ▸ hnew⟩
    have hnot : p ∉ unmet shelf b := by
      intro h
      obtain ⟨-, -, hfree⟩ := Finset.mem_filter.mp h
      exact (hknown _ hfree).2 hidentity.symm
    have hless : (unmet shelf b).card + 1 ≤ (unmet shelf a).card :=
      Finset.card_lt_card (Finset.ssubset_iff_of_subset hsubset |>.mpr ⟨p, hmem, hnot⟩)
    calc cost shelf rank b q
        < ((unmet shelf b).card + 1) * (shelf.places.length + 2) := cost_le hrank b q
      _ ≤ (unmet shelf a).card * (shelf.places.length + 2) := Nat.mul_le_mul_right _ hless
      _ ≤ cost shelf rank a p := Nat.le_add_right _ _

/-- **Where modes are followed deeper than a place costs, following them deeper yet changes
nothing**, neither what comes out nor the calls. -/
theorem agrees_number {rank : Shelf.Place → Nat} (hrank : ∀ p, rank p ≤ shelf.places.length)
    (hfalls : ∀ {p q}, shelf.Leads p q → shelf.dependsAt p = true → shelf.dependsAt q = true →
      rank q < rank p) (foldCase : Bool) (depth : Nat) : ∀ (depth' : Nat) {around m : Mode}
    {p : Shelf.Place} {parent : Option Nat} {a : Arena ρ}, p ∈ shelf.leadsTo around →
    shelf.variant? p.1 p.2 = some m → cost shelf rank a p < depth → cost shelf rank a p < depth' →
    AgreesOn shelf (numbering ρ shelf foldCase depth) (numbering ρ shelf foldCase depth')
      (.number p m parent) a := by
  induction depth with
  | zero => exact fun _ _ _ _ _ _ _ _ hdepth => absurd hdepth (Nat.not_lt_zero _)
  | succ depth ih =>
    intro depth' around m p parent a hp hm hdepth hdepth'
    obtain ⟨depth', rfl⟩ := Nat.exists_eq_succ_of_ne_zero (Nat.ne_zero_of_lt hdepth')
    generalize hi : identity shelf p.1 p.2 m parent = i
    have hbind : (some i).bind a.number? = a.number? i := rfl
    suffices h : Agrees (compileMode shelf foldCase (depth + 1) m (some i) parent)
        (compileMode shelf foldCase (depth' + 1) m (some i) parent) a ∧
        calls shelf foldCase (depth + 1) m (some i) parent a =
          calls shelf foldCase (depth' + 1) m (some i) parent a by
      subst hi
      exact ⟨h.1, h.2⟩
    cases hn : a.number? i with
    | some n =>
      have hrun : ∀ depth,
          compileMode shelf foldCase (depth + 1) m (some i) parent a = .ok (n, a) := by
        intro depth
        rw [compileMode_succ, hbind, hn]
      refine ⟨⟨(hrun depth).trans (hrun depth').symm, fun he => ?_⟩, ?_⟩
      · have hok := (hrun depth).symm.trans he
        cases hok
      · rw [calls, calls, hbind, hn]
    | none =>
      -- both depths ask for the same, each of which costs less than the mode itself
      refine agrees_new (hbind.trans hn) fun own b hb r hr => ?_
      refine agreesOn_of_number (isFor_requests shelf r hr) fun q source parent' he hq hsource => ?_
      subst hi
      have hlt := cost_lt hrank hfalls hp hm hn hq hb
      subst he
      exact ih depth' hq hsource (by omega) (by omega)

end Costs

/-! ### Numbering once -/

/-- The place at which a mode is one and the same. -/
def Identity.place (i : Identity) : Shelf.Place := (i.key, i.variant)

/-- How often calls have numbered the mode at a place. -/
def timesCompiled (p : Shelf.Place) (cs : List Call) : Nat :=
  ((compiled cs).map Identity.place).count p

/-- A mode that does not depend on the mode around it is numbered once at most. -/
theorem Accounts.timesCompiled_le_one {shelf : Shelf} {a : Arena ρ} {cs : List Call} {α : Type}
    {result : Except GrammarProblem (α × Arena ρ)} (h : Accounts shelf a cs result)
    {p : Shelf.Place} (hp : shelf.dependsAt p = false) : timesCompiled p cs ≤ 1 := by
  have hidentity : ∀ i ∈ compiled cs, i.place = p → i = ⟨p.1, p.2, none⟩ := by
    intro i hi hplace
    obtain ⟨m, parent, key, variant, hm, rfl⟩ := h.identifies i hi
    obtain rfl : (key, variant) = p := hplace
    have hfree : shelf.dependsOnParent m = false := (Shelf.dependsAt_eq hm).symm.trans hp
    rw [identity, hfree]
    rfl
  have honce : (compiled cs).count ⟨p.1, p.2, none⟩ ≤ 1 :=
    List.nodup_iff_count_le_one.mp h.nodup _
  refine Nat.le_trans ?_ honce
  rw [timesCompiled, List.count, List.countP_map]
  refine List.countP_mono_left fun i hi hplace => ?_
  simp only [Function.comp_apply, beq_iff_eq] at hplace ⊢
  exact hidentity i hi hplace

/-! ### Grammars -/

variable (ρ) in
/-- Numbers the modes of a grammar from the root on, following them so deep. -/
def numberWithin (g : Grammar) (depth : Nat) : Except GrammarProblem (Nat × Arena ρ) :=
  if (g.root.contains.getD []).contains .self then .error .selfAtRoot
  else compileMode g.shelf g.caseInsensitive depth g.root none none {}

variable (ρ) in
/-- The calls that are made for this. -/
def callsWithin (g : Grammar) (depth : Nat) : List Call :=
  if (g.root.contains.getD []).contains .self then []
  else calls g.shelf g.caseInsensitive depth g.root none none ({} : Arena ρ)

theorem compileRoot_apply (g : Grammar) :
    compileRoot g ({} : Arena ρ) = numberWithin ρ g (depthBound g.shelf) := by
  unfold compileRoot numberWithin
  split <;> rfl

theorem accounts_callsWithin (g : Grammar) (depth : Nat) :
    Accounts g.shelf ({} : Arena ρ) (callsWithin ρ g depth) (numberWithin ρ g depth) := by
  unfold callsWithin numberWithin
  split
  · exact .nil nofun
  · exact accounted_numbering g.shelf g.caseInsensitive depth g.root none none {} nofun

/-- On a grounded shelf modes are followed deep enough from the root on. -/
theorem agrees_root {shelf : Shelf} (h : shelf.Grounded) (foldCase : Bool) (root : Mode)
    {depth : Nat} (hdepth : depthBound shelf ≤ depth) :
    Agrees (compileMode shelf foldCase (depthBound shelf) root none none)
      (compileMode shelf foldCase depth root none none) ({} : Arena ρ) ∧
    calls shelf foldCase (depthBound shelf) root none none ({} : Arena ρ) =
      calls shelf foldCase depth root none none ({} : Arena ρ) := by
  obtain ⟨rank, hrank, hfalls⟩ := h.exists_rank
  have hbound : depthBound shelf =
      (shelf.places.length + 1) * (shelf.places.length + 2) + (shelf.places.length + 1) + 1 := by
    change (shelf.places.length + 2) ^ 2 = _
    ring
  have hcost : ∀ (b : Arena ρ) (p : Shelf.Place),
      cost shelf rank b p < (shelf.places.length + 1) * (shelf.places.length + 2) := by
    intro b p
    have hcard : (unmet shelf b).card ≤ shelf.places.length := card_unmet_le b
    exact (cost_le hrank b p).trans_le (Nat.mul_le_mul_right _ (by omega))
  obtain ⟨below, hbelow⟩ : ∃ below, depth = below + 1 := ⟨depth - 1, by omega⟩
  subst hbelow
  rw [hbound] at hdepth ⊢
  refine agrees_new (ρ := ρ) rfl fun own b _ r hr => ?_
  refine agreesOn_of_number (isFor_requests shelf r hr) fun p source parent he hp hsource => ?_
  have hless := hcost b p
  subst he
  exact agrees_number hrank hfalls foldCase _ _ hp hsource (by omega) (by omega)

/-- The root is numbered in any case. -/
theorem size_pos_of_numberWithin {g : Grammar} {depth id : Nat} {b : Arena ρ}
    (h : numberWithin ρ g depth = .ok (id, b)) : 0 < b.modes.size := by
  have hsize := (accounts_callsWithin g depth).size id b h
  unfold numberWithin at h
  split at h
  · cases h
  · next hself =>
    cases depth with
    | zero => cases h
    | succ depth =>
      rw [callsWithin, if_neg hself, calls] at hsize
      change b.modes.size = 0 + List.countP _ (_ :: _) at hsize
      rw [List.countP_cons_of_pos rfl] at hsize
      omega

/-- A language has as many modes as calls have numbered. -/
theorem size_eq_of_compile {g : Grammar} {name : String} {l : Language ρ}
    (h : compile g name = .ok l) :
    l.size = (callsWithin ρ g (depthBound g.shelf)).countP (·.isNew) := by
  obtain ⟨id, b, hroot, hmodes⟩ := exists_compileRoot h
  rw [compileRoot_apply] at hroot
  have hsize := (accounts_callsWithin g _).size id b hroot
  rw [size, hmodes, hsize]
  exact Nat.zero_add _

/-- **Compiling a grammar ends** if every cycle of modes goes through one that does not depend on
the mode around it: it does not break off for want of depth, and however deep modes are followed the
calls that are made stay the same, of which there are only so many. Each place whose mode does not
depend on the mode around it is met by one call at most that has to number it. -/
theorem compile_ends {g : Grammar} (h : g.shelf.Grounded) :
    (∀ name shown,
      (compile g name : Except Problem (Language ρ)) ≠ .error (.grammar shown .endless)) ∧
    (∀ depth, depthBound g.shelf ≤ depth →
      numberWithin ρ g depth = compileRoot g {} ∧
        callsWithin ρ g depth = callsWithin ρ g (depthBound g.shelf)) ∧
    (∀ name (l : Language ρ), compile g name = .ok l →
      l.size = (callsWithin ρ g (depthBound g.shelf)).countP (·.isNew)) ∧
    ∀ p, g.shelf.dependsAt p = false →
      timesCompiled p (callsWithin ρ g (depthBound g.shelf)) ≤ 1 := by
  have hroot := fun {depth : Nat} (hdepth : depthBound g.shelf ≤ depth) =>
    agrees_root (ρ := ρ) h g.caseInsensitive g.root hdepth
  refine ⟨fun name shown he => ?_, fun depth hdepth => ?_, fun _ _ => size_eq_of_compile,
    fun p hp => ?_⟩
  · have hends : compileRoot g ({} : Arena ρ) ≠ .error .endless := by
      rw [compileRoot_apply, numberWithin]
      split
      · simp
      · exact (hroot (Nat.le_refl _)).1.ends
    unfold compile at he
    dsimp only at he
    split at he
    · next cause hcause =>
      cases he
      exact hends hcause
    · next id b hb =>
      split at he
      · cases he
      · next hsize =>
        exact hsize (size_pos_of_numberWithin ((compileRoot_apply g).symm.trans hb))
  · rw [compileRoot_apply]
    unfold numberWithin callsWithin
    split
    · exact ⟨rfl, rfl⟩
    · obtain ⟨hresult, hcalls⟩ := hroot hdepth
      exact ⟨hresult.eq.symm, hcalls.symm⟩
  · exact (accounts_callsWithin g _).timesCompiled_le_one hp

/-! ### Texts inside of texts -/

/-- Texts in quotes of two kinds. Code may be written inside, up to the end of the text, which may
hold such texts again. -/
def entwined : Grammar where
  root := { contains := some [.mode 0] }
  shelf := {
    modes := #[
      { className := some "string", contains := some [.mode 3], variants := some [1, 2] },
      { beginPattern := some "'", endPattern := some "'" },
      { beginPattern := some "\"", endPattern := some "\"" },
      { className := some "subst", beginPattern := some "\\$", endsWithParent := some true,
        contains := some [.late 0] }]
    slots := #[some 0] }

theorem grounded_entwined : entwined.shelf.Grounded :=
  Shelf.grounded_of_forall (fun _ => 0) (by decide +kernel)

/-- Both kinds of texts are numbered once, the code inside once for each kind. -/
theorem compile_ends_entwined : entwined.shelf.Grounded ∧
    (∃ l : Language Regex.Tried, compile entwined "Entwined" = .ok l ∧ l.size = 5 ∧
      (callsWithin Regex.Tried entwined (depthBound entwined.shelf)).countP (·.isNew) = 5) ∧
    numberWithin Regex.Tried entwined (depthBound entwined.shelf + 1) = compileRoot entwined {} ∧
    ∀ n, timesCompiled (0, some n)
      (callsWithin Regex.Tried entwined (depthBound entwined.shelf)) ≤ 1 := by
  obtain ⟨-, hdeeper, hsize, honce⟩ := compile_ends (ρ := Regex.Tried) grounded_entwined
  obtain ⟨l, hl, hfive⟩ : ∃ l : Language Regex.Tried, compile entwined "Entwined" = .ok l ∧
      l.size == 5 := exists_of_any (by decide +kernel)
  have hl_size : l.size = 5 := beq_iff_eq.mp hfive
  have htexts : ∀ n, entwined.shelf.dependsAt (0, some n) = false := by
    intro n
    rcases n with _ | _ | n <;> rfl
  refine ⟨grounded_entwined, ⟨l, hl, hl_size, ?_⟩, ?_, fun n => honce _ (htexts n)⟩
  · rw [← hsize "Entwined" l hl, hl_size]
  · exact (hdeeper _ (Nat.le_succ _)).1

end Language

end CodeMarkup
