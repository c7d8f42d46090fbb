import CodeMarkup.Proofs.Language.Asked

/-! # Arenas that say what has been met

While modes are numbered, the arena is `Accurate`: each mode in it has the fields of a mode that is
met, as it is met there, and what is known to be the same inside of all modes has been met. With the
numbers of its children at hand the rules of a mode are those that the grammar says
(`Accurate.rules`). A mode is `Finished` once all that it refers to has a number and its rules are
accepted. Then it is not malformed (`Finished.not_malformed`). -/

namespace CodeMarkup

variable {ρ : Type} [Engine ρ]

namespace Language

variable {g : Grammar} {alone : List Key} {a b : Arena ρ}

/-! ### Modes with none around them -/

/-- Whether this is what makes a mode one and the same that has been met with none around it. -/
def Identity.IsAlone (alone : List Key) (i : Identity) : Prop :=
  i.variant = none ∧ i.parent = none ∧ i.key ∈ alone

theorem isAlone_identity {shelf : Shelf} {p : Shelf.Place} {m : Mode}
    (hm : shelf.variant? p.1 p.2 = some m) (parent : Nat) :
    (identity shelf p.1 p.2 m (some parent)).IsAlone alone ↔ isAlone shelf alone p = true := by
  obtain ⟨key, variant⟩ := p
  unfold Identity.IsAlone isAlone identity
  rw [Shelf.dependsAt_eq hm]
  cases variant <;> cases shelf.dependsOnParent m <;> simp

/-- Where a mode stands that is one and the same by an identity: in none if it has been met so, else
inside a mode with this terminator, which matters if the mode depends on the mode around it. -/
def Situated (shelf : Shelf) (alone : List Key) (a : Arena ρ) (i : Identity) (m : Mode) :
    Option String → Prop
  | none => i.IsAlone alone
  | some t => ¬ i.IsAlone alone ∧
    (shelf.dependsOnParent m = true → ∃ p, i.parent = some p ∧ t = a.terminator p)

/-- A mode inside a parent is situated in the parent, or has been met with none around it. -/
theorem situated_identity {shelf : Shelf} {p : Shelf.Place} {m : Mode}
    (hm : shelf.variant? p.1 p.2 = some m) (h : isAlone shelf alone p = false) (parent : Nat) :
    Situated shelf alone a (identity shelf p.1 p.2 m (some parent)) m
      (some (a.terminator parent)) := by
  refine ⟨fun hi => ?_, fun hd => ⟨parent, if_pos hd, rfl⟩⟩
  rw [isAlone_identity hm, h] at hi
  cases hi

/-! ### Accuracy -/

/-- Why the mode with a key can be known as one that is the same inside of all modes: it has been met
with none around it, or does not depend on the mode around it and has been met inside of one. -/
def Explained (g : Grammar) (alone : List Key) (key : Key) : Prop :=
  key ∈ alone ∨ g.shelf.dependsAt (key, none) = false ∧ ∃ m around source terminator,
    Met g alone m around ∧ Refers g.shelf m around (key, none) source terminator

theorem Explained.not_followed {key : Key} (h : Explained g alone key) :
    ¬ Followed g (key :: alone) := by
  intro hf
  cases hf with
  | cons _ _ hkey hnew =>
    rcases h with h | ⟨hfree, m, around, source, terminator, hm, hr⟩
    · exact hkey h
    · have hdep := hnew m around source terminator hm hr
      rw [hfree] at hdep
      cases hdep

theorem Explained.cons {key k : Key} (hk : Followed g (k :: alone)) (h : Explained g alone key) :
    Explained g (k :: alone) key := by
  rcases h with h | ⟨hfree, m, around, source, terminator, hm, hr⟩
  · exact Or.inl (List.mem_cons_of_mem k h)
  · exact Or.inr ⟨hfree, m, around, source, terminator, hk.met_cons hm, hr⟩

/-- An arena whose modes have the fields of what has been met. -/
structure Accurate (g : Grammar) (alone : List Key) (a : Arena ρ) : Prop where
  tidy : a.Tidy
  root : ∃ cm, a.modes[0]? = some cm ∧ ownFields g.caseInsensitive g.root none = .ok cm.bare
  fields : ∀ {i : Identity} {n : Nat}, a.number? i = some n → ∃ m around cm,
    g.shelf.variant? i.key i.variant = some m ∧ Situated g.shelf alone a i m around ∧
      a.modes[n]? = some cm ∧ ownFields g.caseInsensitive m around = .ok cm.bare
  met : ∀ key ∈ alone, ∃ n, a.number? ⟨key, none, none⟩ = some n
  known : ∀ {key : Key} {n : Nat}, a.number? ⟨key, none, none⟩ = some n → Explained g alone key

namespace Accurate

theorem pos (h : Accurate g alone a) : 0 < a.modes.size := by
  obtain ⟨cm, hcm, -⟩ := h.root
  exact Arena.lt_size hcm

/-- A mode that is known has its fields wherever it is situated. -/
theorem own (h : Accurate g alone a) {i : Identity} {n : Nat} (hn : a.number? i = some n) {m : Mode}
    (hm : g.shelf.variant? i.key i.variant = some m) {around : Option String}
    (hi : Situated g.shelf alone a i m around) :
    ∃ cm, a.modes[n]? = some cm ∧ ownFields g.caseInsensitive m around = .ok cm.bare := by
  obtain ⟨m', around', cm, hm', hi', hcm, hown⟩ := h.fields hn
  obtain rfl := Option.some.inj (hm.symm.trans hm')
  refine ⟨cm, hcm, ?_⟩
  cases around with
  | none =>
    cases around' with
    | none => exact hown
    | some t => exact absurd hi hi'.1
  | some s =>
    cases around' with
    | none => exact absurd hi' hi.1
    | some t =>
      cases hd : g.shelf.dependsOnParent m with
      | true =>
        obtain ⟨p, hp, rfl⟩ := hi.2 hd
        obtain ⟨q, hq, rfl⟩ := hi'.2 hd
        obtain rfl := Option.some.inj (hp.symm.trans hq)
        exact hown
      | false =>
        rw [ownFields_congr (t := t) (Shelf.endsWithParent_of_dependsOnParent hd)]
        exact hown

/-- A mode that is referred to has the begin that the grammar says. -/
theorem beginPattern (h : Accurate g alone a) {p : Shelf.Place} {m : Mode} {parent n : Nat}
    (hm : g.shelf.variant? p.1 p.2 = some m)
    (hn : a.number? (identity g.shelf p.1 p.2 m (some parent)) = some n) :
    (a.modes[n]?.map (·.beginPattern)).getD "" = beginAt g.shelf alone p := by
  unfold beginAt
  cases hp : isAlone g.shelf alone p with
  | true =>
    have hi : Situated g.shelf alone a (identity g.shelf p.1 p.2 m (some parent)) m none :=
      (isAlone_identity hm parent).mpr hp
    obtain ⟨cm, hcm, hown⟩ := h.own hn hm hi
    rw [hcm, if_pos rfl]
    exact begin_of_ownFields hown
  | false =>
    obtain ⟨cm, hcm, hown⟩ := h.own hn hm (situated_identity hm hp parent)
    rw [hcm, hm, if_neg Bool.false_ne_true]
    exact (begin_of_ownFields hown).trans (boundsIn_fst m _ "")

/-! ### Keeping accurate -/

/-- A mode that is added where it is met. -/
theorem add {more : List Key} (h : Accurate g alone a) {i : Identity} (hi : a.number? i = none)
    {own : CompiledMode ρ} {m : Mode} {around : Option String}
    (hm : g.shelf.variant? i.key i.variant = some m)
    (hown : ownFields g.caseInsensitive m around = .ok own)
    (hin : Situated g.shelf more a i m around) (hparent : ∀ p, i.parent = some p → p < a.modes.size)
    (hmore : ∀ {j n}, a.number? j = some n → (j.IsAlone more ↔ j.IsAlone alone))
    (halone : ∀ key ∈ more, key ∈ alone ∨ i = ⟨key, none, none⟩)
    (hknown : ∀ key, Explained g alone key ∨ i = ⟨key, none, none⟩ → Explained g more key) :
    Accurate g more (a.add own (some i)) := by
  have hext := Arena.extends_add own (a := a) (i := some i) hi
  -- terminators are what they were, so a mode stays where it is situated
  have hsituated : ∀ {j : Identity} {m : Mode} {around : Option String},
      (∀ p, j.parent = some p → p < a.modes.size) → Situated g.shelf more a j m around →
        Situated g.shelf more (a.add own (some i)) j m around := by
    intro j m around hp hj
    cases around with
    | none => exact hj
    | some t =>
      refine ⟨hj.1, fun hd => ?_⟩
      obtain ⟨p, hpj, rfl⟩ := hj.2 hd
      exact ⟨p, hpj, (hext.preserves.terminator (hp p hpj)).symm⟩
  refine {
    tidy := h.tidy.add own (fun _ => h.pos) fun j p hj hp => ?_
    root := ?_
    fields := fun {j n} hn => ?_
    met := fun key hkey => ?_
    known := fun {key n} hn => hknown key ?_ }
  · cases hj
    exact hparent p hp
  · obtain ⟨cm, hcm, hroot⟩ := h.root
    exact ⟨cm, hext.modes hcm, hroot⟩
  · rw [Arena.number?_add] at hn
    split at hn
    · next he =>
      cases he
      cases hn
      exact ⟨m, around, own, hm, hsituated hparent hin, Arena.getElem?_add_size a own _,
        bare_of_ownFields hown⟩
    · obtain ⟨m', around', cm, hm', hj, hcm, hown'⟩ := h.fields hn
      refine ⟨m', around', cm, hm', hsituated (fun p hp => ?_) ?_, hext.modes hcm, hown'⟩
      · exact Nat.lt_trans (h.tidy.parent hn hp) (h.tidy.lt hn)
      · cases around' with
        | none => exact (hmore hn).mpr hj
        | some t => exact ⟨mt (hmore hn).mp hj.1, hj.2⟩
  · rcases halone key hkey with hkey | rfl
    · obtain ⟨n, hn⟩ := h.met key hkey
      exact ⟨n, hext.known hn⟩
    · exact ⟨_, by rw [Arena.number?_add, if_pos rfl]⟩
  · rw [Arena.number?_add] at hn
    split at hn
    · next he => exact Or.inr (Option.some.inj he)
    · exact Or.inl (h.known hn)

/-- A mode that gets its links. -/
theorem link (h : Accurate g alone a) (id : Nat) (children : List Nat) (starts : Option Nat)
    (matcher : Matcher ρ) : Accurate g alone (a.link id children starts matcher) := by
  have hlink := Arena.preserves_link a id children starts matcher
  refine {
    tidy := h.tidy.link ..
    root := ?_
    fields := fun {j n} hn => ?_
    met := h.met
    known := h.known }
  · obtain ⟨cm, hcm, hroot⟩ := h.root
    obtain ⟨cm', hcm', hbare⟩ := hlink.modes hcm
    exact ⟨cm', hcm', hbare ▸ hroot⟩
  · obtain ⟨m, around, cm, hm, hj, hcm, hown⟩ := h.fields hn
    obtain ⟨cm', hcm', hbare⟩ := hlink.modes hcm
    refine ⟨m, around, cm', hm, ?_, hcm', hbare ▸ hown⟩
    cases around with
    | none => exact hj
    | some t =>
      refine ⟨hj.1, fun hd => ?_⟩
      obtain ⟨p, hp, rfl⟩ := hj.2 hd
      have hlt := Nat.lt_trans (h.tidy.parent hn hp) (h.tidy.lt hn)
      exact ⟨p, hp, (hlink.terminator hlt).symm⟩

end Accurate

/-! ### Answers -/

/-- Whether a number is the right one for what is asked for inside a mode. -/
def Answers (shelf : Shelf) (a : Arena ρ) (id : Nat) : Request → Nat → Prop
  | .own _, n => n = id
  | .refuse _, _ => False
  | .number p m parent, n => a.number? (identity shelf p.1 p.2 m parent) = some n

/-- What is asked for the children of a mode. -/
def childrenRequests (shelf : Shelf) (id : Nat) (m : Mode) : List Request :=
  (m.contains.getD []).flatMap (childRequests shelf id)

/-- Whether the children of a mode have these numbers. -/
def ChildrenAre (shelf : Shelf) (a : Arena ρ) (id : Nat) (m : Mode) (children : List Nat) : Prop :=
  List.Forall₂ (Answers shelf a id) (childrenRequests shelf id m) children

section Answers

variable {shelf : Shelf} {id : Nat} {m : Mode} {children : List Nat}

theorem Answers.mono (h : ∀ {i n}, a.number? i = some n → b.number? i = some n) {r : Request}
    {n : Nat} (hr : Answers shelf a id r n) : Answers shelf b id r n := by
  cases r with
  | own k => exact hr
  | refuse cause => exact hr
  | number p source parent => exact h hr

namespace ChildrenAre

theorem mono (h : ∀ {i n}, a.number? i = some n → b.number? i = some n)
    (hc : ChildrenAre shelf a id m children) : ChildrenAre shelf b id m children :=
  hc.imp fun _ _ => Answers.mono h

theorem lt (hc : ChildrenAre shelf a id m children) (ha : a.Tidy) (hid : id < a.modes.size) :
    ∀ c ∈ children, c < a.modes.size := by
  unfold ChildrenAre at hc
  generalize childrenRequests shelf id m = rs at hc
  induction hc with
  | nil => exact fun c hc => absurd hc List.not_mem_nil
  | @cons r n _ _ hr _ ih =>
    refine List.forall_mem_cons.mpr ⟨?_, ih⟩
    cases r with
    | own k => exact (show n = id from hr) ▸ hid
    | refuse cause => exact hr.elim
    | number p source parent => exact ha.lt hr

theorem exists_answer (hc : ChildrenAre shelf a id m children) :
    ∀ r ∈ childrenRequests shelf id m, ∃ n, Answers shelf a id r n := by
  unfold ChildrenAre at hc
  generalize childrenRequests shelf id m = rs at hc
  induction hc with
  | nil => exact fun r hr => absurd hr List.not_mem_nil
  | cons hr _ ih => exact List.forall_mem_cons.mpr ⟨⟨_, hr⟩, ih⟩

/-- Children that have numbers are not refused. -/
theorem not_refusesChild (hc : ChildrenAre shelf a id m children) {c : Child}
    (hmem : c ∈ m.contains.getD []) : ¬ RefusesChild shelf c := by
  intro hrefuse
  obtain ⟨cause, hcause⟩ := exists_refuse id hrefuse
  obtain ⟨n, hn⟩ := hc.exists_answer _ (List.mem_flatMap.mpr ⟨c, hmem, hcause⟩)
  exact hn

/-- All modes at places of children are known inside the mode. -/
theorem known (hc : ChildrenAre shelf a id m children) {c : Child}
    (hmem : c ∈ m.contains.getD []) {p : Shelf.Place} (hp : p ∈ shelf.placesOfChild c) {source : Mode}
    (hsource : shelf.variant? p.1 p.2 = some source) :
    ∃ n, a.number? (identity shelf p.1 p.2 source (some id)) = some n := by
  have hr : .number p source (some id) ∈ childRequests shelf id c := by
    rw [childRequests_eq id (hc.not_refusesChild hmem)]
    refine List.mem_append_right _ (List.mem_map.mpr ⟨p, hp, ?_⟩)
    rw [hsource, Option.getD_some]
  exact hc.exists_answer _ (List.mem_flatMap.mpr ⟨c, hmem, hr⟩)

end ChildrenAre

end Answers

/-- The begin of what is asked for inside a mode. -/
def Request.beginIn (shelf : Shelf) (alone : List Key) (m : Mode) (around : Option String) :
    Request → String
  | .own _ => (boundsIn m around).1
  | .refuse _ => ""
  | .number p _ _ => beginAt shelf alone p

theorem map_beginIn {shelf : Shelf} {m : Mode} {around : Option String} {id : Nat} {c : Child}
    (h : ¬ RefusesChild shelf c) : (childRequests shelf id c).map (·.beginIn shelf alone m around) =
      beginsOf shelf alone m around c := by
  rw [childRequests_eq id h]
  cases c <;> simp [beginsOf, Request.beginIn, Shelf.placesOfChild, Function.comp_def]

/-- The begins of the children of a mode are those that the grammar says. -/
theorem Accurate.begins (h : Accurate g alone a) {id : Nat} {m : Mode} {around : Option String}
    {children : List Nat} {cm : CompiledMode ρ} (hcm : a.modes[id]? = some cm)
    (hown : ownFields g.caseInsensitive m around = .ok cm.bare)
    (hc : ChildrenAre g.shelf a id m children) :
    children.map (fun c => (a.modes[c]?.map (·.beginPattern)).getD "") =
      (m.contains.getD []).flatMap (beginsOf g.shelf alone m around) := by
  have hbegin : ∀ r ∈ childrenRequests g.shelf id m, ∀ n, Answers g.shelf a id r n →
      (a.modes[n]?.map (·.beginPattern)).getD "" = r.beginIn g.shelf alone m around := by
    intro r hr n hn
    obtain ⟨c, -, hr⟩ := List.mem_flatMap.mp hr
    rcases of_mem_childRequests hr with rfl | ⟨p, source, rfl, -, hsource⟩ | ⟨cause, rfl, -⟩
    · rw [show n = id from hn, hcm]
      exact begin_of_ownFields hown
    · exact h.beginPattern hsource hn
    · exact hn.elim
  have hmap : children.map (fun c => (a.modes[c]?.map (·.beginPattern)).getD "") =
      (childrenRequests g.shelf id m).map (·.beginIn g.shelf alone m around) := by
    obtain ⟨hlength, hall⟩ := List.forall₂_iff_get.mp hc
    refine List.ext_getElem (by simp [hlength]) fun n hn hn' => ?_
    rw [List.length_map] at hn hn'
    rw [List.getElem_map, List.getElem_map]
    exact hbegin _ (List.getElem_mem hn') _ (hall n hn' hn)
  rw [hmap, childrenRequests, List.map_flatMap]
  exact List.flatMap_congr fun c hmem => map_beginIn (hc.not_refusesChild hmem)

/-- **The rules of a mode are those that the grammar says.** -/
theorem Accurate.rules (h : Accurate g alone a) {id : Nat} {m : Mode} {around : Option String}
    {children : List Nat} {cm : CompiledMode ρ} (hcm : a.modes[id]? = some cm)
    (hown : ownFields g.caseInsensitive m around = .ok cm.bare)
    (hc : ChildrenAre g.shelf a id m children) :
    (a.rules id children).map Prod.snd = rulesIn g.shelf alone m around := by
  have hillegal : cm.illegal = illegalPattern m.illegal := (of_ownFields hown).illegal
  have hterminator : cm.terminator = (boundsIn m around).2.2 := terminator_of_ownFields hown
  unfold Arena.rules rulesIn
  rw [hcm, ← h.begins hcm hown hc, ← hterminator, ← hillegal]
  dsimp only
  rw [List.map_append, List.map_append, List.map_map]
  congr 1
  · congr 1
    split <;> rfl
  · cases cm.illegal <;> rfl

/-! ### Modes that are finished -/

/-- A mode that has its links: all that it refers to has a number, and its rules are accepted. -/
structure Finished (g : Grammar) (a : Arena ρ) (n : Nat) (m : Mode) (parent : Option Nat)
    (cm : CompiledMode ρ) : Prop where
  found : a.modes[n]? = some cm
  children : ChildrenAre g.shelf a n m cm.children
  starts : ∀ key, m.starts = some key →
    ∃ k, a.number? (identity g.shelf key none (g.shelf.mode key) parent) = some k
  matcher : Matcher.ofRules (a.rules n cm.children) g.caseInsensitive = .ok cm.matcher

/-- The mode that is known by an identity is finished, inside of any parent that agrees with it. -/
def IsFinished (g : Grammar) (a : Arena ρ) (i : Identity) (n : Nat) : Prop :=
  ∃ m parent cm, g.shelf.variant? i.key i.variant = some m ∧
    i = identity g.shelf i.key i.variant m parent ∧ Finished g a n m parent cm

/-- A finished mode stays so where it is left alone. -/
theorem Finished.mono {n : Nat} {m : Mode} {parent : Option Nat} {cm : CompiledMode ρ}
    (h : Finished g a n m parent cm) (ha : a.Tidy) (hab : a.Preserves b)
    (hn : b.modes[n]? = a.modes[n]?) : Finished g b n m parent cm where
  found := hn.trans h.found
  children := h.children.mono hab.known
  starts key hkey := by
    obtain ⟨k, hk⟩ := h.starts key hkey
    exact ⟨k, hab.known hk⟩
  matcher := by
    have hlt := Arena.lt_size h.found
    rw [hab.rules hlt (h.children.lt ha hlt)]
    exact h.matcher

theorem IsFinished.mono {i : Identity} {n : Nat} (h : IsFinished g a i n) (ha : a.Tidy)
    (hab : a.Preserves b) (hn : b.modes[n]? = a.modes[n]?) : IsFinished g b i n := by
  obtain ⟨m, parent, cm, hm, hi, hf⟩ := h
  exact ⟨m, parent, cm, hm, hi, hf.mono ha hab hn⟩

theorem IsFinished.extends_ {i : Identity} {n : Nat} (h : IsFinished g a i n) (ha : a.Tidy)
    (hab : a.Extends b) : IsFinished g b i n := by
  obtain ⟨m, parent, cm, hm, hi, hf⟩ := h
  exact ⟨m, parent, cm, hm, hi, hf.mono ha hab.preserves ((hab.modes hf.found).trans hf.found.symm)⟩

/-- **A mode that is finished is not malformed.** -/
theorem Finished.not_malformed (ha : Accurate g alone a) {n : Nat} {m : Mode}
    {parent : Option Nat} {cm : CompiledMode ρ} (h : Finished g a n m parent cm)
    {around : Option String} (hown : ownFields g.caseInsensitive m around = .ok cm.bare) :
    ¬ Malformed g alone ρ m around := by
  have hrules := ha.rules h.found hown h.children
  have haccepted : ¬ Fails (Matcher.ofRules (a.rules n cm.children) g.caseInsensitive :
      Except GrammarProblem (Matcher ρ)) := by
    rw [h.matcher]
    exact not_fails_ok _
  rw [fails_ofRules_iff, hrules] at haccepted
  have hsome : rulesIn g.shelf alone m around ≠ [] → a.rules n cm.children ≠ [] := by
    intro hne he
    rw [he] at hrules
    exact hne hrules.symm
  intro hbad
  cases hbad with
  | fields hfaulty =>
    have hfails := fails_ownFields_iff.mpr hfaulty
    rw [hown] at hfails
    exact not_fails_ok _ hfails
  | slot hslot hnone =>
    exact h.children.not_refusesChild hslot (Or.inl ⟨_, rfl, hnone⟩)
  | nested hc hkey hnested =>
    exact h.children.not_refusesChild hc (Or.inr ⟨_, hkey, hnested⟩)
  | rule hmem hinvalid => exact haccepted (Or.inl ⟨_, hmem, hinvalid⟩)
  | joined hne hinvalid => exact haccepted (Or.inr ⟨hsome hne, hinvalid⟩)

end Language

end CodeMarkup
