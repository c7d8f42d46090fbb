import CodeMarkup.Proofs.Language.Grounded

/-! # The calls that number modes

What is done for the links of a mode is a row of requests: for each child, for each variant of one,
and for the mode that follows (`requests`). Numbering a new mode is answering them one after the
other and linking what comes out (`numberNew_apply`). So the calls of `compileMode` can be listed
beside it, also where it breaks off (`calls`). Every call that has to number a mode does so for
something that is not known yet, and makes it known (`accounts_compileMode`). -/

namespace CodeMarkup

variable {ρ : Type} [Engine ρ]

namespace Language

/-! ### Requests -/

/-- What is done for a link of a mode. -/
inductive Request where
  /-- A mode is linked to itself. -/
  | own (id : Nat)
  /-- The grammar is refused. -/
  | refuse (cause : GrammarProblem)
  /-- The mode at a place is numbered inside a parent. -/
  | number (p : Shelf.Place) (m : Mode) (parent : Option Nat)

section Requests

variable (shelf : Shelf)

/-- What is done for the variants of a mode inside a parent. -/
def variantRequests (key : Key) (m : Mode) (parent : Nat) (vs : List Key) (first : Nat) :
    List Request :=
  (vs.zipIdx first).map fun (v, n) =>
    if (shelf.mode v).variants.any (!·.isEmpty) then .refuse .nestedVariants
    else .number (key, some n) (m.merge (shelf.mode v)) (some parent)

/-- What is done for a mode on the shelf inside a parent. -/
def keyRequests (parent : Nat) (key : Key) : List Request :=
  match (shelf.mode key).variants with
  | some (v :: vs) => variantRequests shelf key (shelf.mode key) parent (v :: vs) 0
  | _ => [.number (key, none) (shelf.mode key) (some parent)]

/-- What is done for a child of a mode. -/
def childRequests (id : Nat) : Child → List Request
  | .self => [.own id]
  | .mode key => keyRequests shelf id key
  | .late slot => ((shelf.inSlot? slot).map (keyRequests shelf id)).getD [.refuse .unsetSlot]

/-- What is done for all links of a mode inside a parent. -/
def requests (id : Nat) (m : Mode) (parent : Option Nat) : List Request :=
  (m.contains.getD []).flatMap (childRequests shelf id) ++
    m.starts.toList.map fun key => .number (key, none) (shelf.mode key) parent

variable (compile : Mode → Option Identity → Option Nat → Compiling ρ Nat)

/-- The number that is asked for. -/
def answer : Request → Compiling ρ Nat
  | .own id => pure id
  | .refuse cause => throw cause
  | .number p m parent => compile m (some (identity shelf p.1 p.2 m parent)) parent

theorem variantIds_eq (key : Key) (m : Mode) (parent : Nat) : ∀ (first : Nat) (vs : List Key),
    variantIds shelf compile key m parent first vs =
      (variantRequests shelf key m parent vs first).mapM (answer shelf compile)
  | _, [] => rfl
  | first, v :: vs => by
    rw [variantIds, variantRequests, List.zipIdx_cons, List.map_cons, List.mapM_cons,
      variantIds_eq key m parent (first + 1) vs]
    by_cases hv : (shelf.mode v).variants.any (!·.isEmpty)
    · simp only [hv, if_true]
      rfl
    · simp only [hv]
      rfl

theorem expand_eq (key : Key) (parent : Nat) : expand shelf compile key parent =
    (keyRequests shelf parent key).mapM (answer shelf compile) := by
  unfold expand keyRequests
  match hv : (shelf.mode key).variants with
  | some (v :: vs) => simp only [hv, variantIds_eq]
  | some [] | none =>
    simp only [hv, List.mapM_cons, List.mapM_nil, pure_bind]
    rfl

theorem childIds_eq (id : Nat) : ∀ cs : List Child, childIds shelf compile id cs =
    (cs.flatMap (childRequests shelf id)).mapM (answer shelf compile)
  | [] => rfl
  | c :: cs => by
    rw [List.flatMap_cons, List.mapM_append, ← childIds_eq id cs]
    cases c with
    | self =>
      rw [childIds, childRequests, List.mapM_cons, List.mapM_nil, answer]
      simp
    | mode key => rw [childIds, childRequests, expand_eq]
    | late slot =>
      rw [childIds, childRequests]
      cases shelf.inSlot? slot with
      | none => rfl
      | some key => simp only [expand_eq, Option.map_some, Option.getD_some]

theorem followIds_eq (parent : Option Nat) : ∀ key : Option Key,
    followIds shelf compile parent key = List.head? <$>
      (key.toList.map fun key => .number (key, none) (shelf.mode key) parent).mapM
        (answer shelf compile)
  | none => rfl
  | some key => by
    rw [followIds, Option.toList_some, List.map_cons, List.map_nil, List.mapM_cons, List.mapM_nil,
      answer]
    simp

/-- Links a mode to its children and to what follows it. -/
def linkTo (foldCase : Bool) (id : Nat) (children : List Nat) (starts : Option Nat) :
    Compiling ρ Nat := do
  let matcher ← Matcher.ofRules ((← get).rules id children) foldCase
  modify (·.link id children starts matcher)
  return id

/-- Links a mode to what has been numbered for it, the last of which may be what follows it. -/
def linkNew (foldCase : Bool) (m : Mode) (id : Nat) (ids : List Nat) : Compiling ρ Nat :=
  if m.starts.isSome then linkTo foldCase id ids.dropLast ids.getLast?
  else linkTo foldCase id ids none

/-- Numbering the children of a mode and what follows it is answering all requests of the mode. -/
theorem childIds_bind_followIds (foldCase : Bool) (id : Nat) (m : Mode) (parent : Option Nat) :
    (do
      let children ← childIds shelf compile id (m.contains.getD [])
      let starts ← followIds shelf compile parent m.starts
      linkTo foldCase id children starts) =
    (requests shelf id m parent).mapM (answer shelf compile) >>= linkNew foldCase m id := by
  rw [requests, List.mapM_append, childIds_eq, followIds_eq]
  cases hstarts : m.starts with
  | none =>
    have hlink : linkNew (ρ := ρ) foldCase m id = fun ids => linkTo foldCase id ids none := by
      funext ids
      simp [linkNew, hstarts]
    simp [hlink]
  | some key =>
    have hlink : ∀ ids n, linkNew (ρ := ρ) foldCase m id (ids ++ [n]) =
        linkTo foldCase id ids (some n) := by
      intro ids n
      simp [linkNew, hstarts]
    simp [hlink]

/-- **Numbering a new mode is answering its requests one after the other**, once it has its fields,
and linking what comes out. -/
theorem numberNew_apply (foldCase : Bool) (m : Mode) (i : Option Identity) (parent : Option Nat)
    (a : Arena ρ) : numberNew shelf compile foldCase m i parent a =
      match ownFields foldCase m (parent.map a.terminator) with
      | .error cause => .error cause
      | .ok own => ((requests shelf a.modes.size m parent).mapM (answer shelf compile) >>=
          linkNew foldCase m a.modes.size) (a.add own i) := by
  rw [← childIds_bind_followIds]
  unfold numberNew
  change ((ownFields foldCase m (parent.map a.terminator) :
    Except GrammarProblem (CompiledMode ρ)) >>= fun own => pure (own, a)) >>= _ = _
  cases (ownFields foldCase m (parent.map a.terminator) :
    Except GrammarProblem (CompiledMode ρ)) <;> rfl

/-- Whether a request can be one for the links of a mode: it is for a place that the mode leads to,
and for the mode at that place. -/
def Request.IsFor (m : Mode) : Request → Prop
  | .own _ => True
  | .refuse cause => cause ≠ .endless
  | .number p source _ => p ∈ shelf.leadsTo m ∧ shelf.variant? p.1 p.2 = some source

theorem isFor_keyRequests {m : Mode} {key : Key}
    (hkey : ∀ p ∈ shelf.placesOf key, p ∈ shelf.leadsTo m) (parent : Nat) :
    ∀ r ∈ keyRequests shelf parent key, r.IsFor shelf m := by
  intro r hr
  unfold keyRequests at hr
  unfold Shelf.placesOf at hkey
  split at hr
  · next v vs hv =>
    rw [hv] at hkey
    obtain ⟨⟨w, n⟩, hw, rfl⟩ := List.mem_map.mp hr
    have hget : (v :: vs)[n]? = some w := List.mem_zipIdx_iff_getElem?.mp hw
    have hn : n < (v :: vs).length := (List.getElem?_eq_some_iff.mp hget).1
    dsimp only
    split
    · exact GrammarProblem.noConfusion
    · refine ⟨hkey _ (List.mem_map_of_mem (List.mem_range.mpr hn)), ?_⟩
      simp only [Shelf.variant?, Shelf.alternatives, hv, List.getElem?_map, hget, Option.map_some]
  · next hv =>
    rw [List.mem_singleton.mp hr]
    refine ⟨hkey _ ?_, rfl⟩
    split
    · next v vs hv' => exact absurd hv' (hv v vs)
    · exact List.mem_singleton_self _

/-- All requests of a mode are for its links. -/
theorem isFor_requests {id : Nat} {m : Mode} {parent : Option Nat} :
    ∀ r ∈ requests shelf id m parent, r.IsFor shelf m := by
  intro r hr
  rcases List.mem_append.mp hr with hr | hr
  · obtain ⟨c, hc, hr⟩ := List.mem_flatMap.mp hr
    have hchild : ∀ p ∈ shelf.placesOfChild c, p ∈ shelf.leadsTo m := fun p hp =>
      List.mem_append_left _ (List.mem_flatMap.mpr ⟨c, hc, hp⟩)
    cases c with
    | self =>
      rw [List.mem_singleton.mp hr]
      trivial
    | mode key => exact isFor_keyRequests shelf hchild id r hr
    | late slot =>
      rw [Shelf.placesOfChild] at hchild
      rw [childRequests] at hr
      cases hslot : shelf.inSlot? slot with
      | none =>
        rw [hslot] at hr
        rw [List.mem_singleton.mp hr]
        exact GrammarProblem.noConfusion
      | some key =>
        rw [hslot] at hr hchild
        exact isFor_keyRequests shelf hchild id r hr
  · obtain ⟨key, hkey, rfl⟩ := List.mem_map.mp hr
    exact ⟨List.mem_append_right _ (List.mem_map_of_mem hkey), rfl⟩

end Requests

/-! ### Calls -/

/-- A call that numbers a mode: what makes the mode one and the same, nothing for the root, and
whether the mode has not been met before. -/
structure Call where
  identity : Option Identity
  isNew : Bool
  deriving DecidableEq, Repr

/-- A way to number modes, with the calls that it makes. -/
structure Numbering (ρ : Type) [Engine ρ] where
  run : Mode → Option Identity → Option Nat → Compiling ρ Nat
  calls : Mode → Option Identity → Option Nat → Arena ρ → List Call

/-- The calls that a request leads to. -/
def Request.calls (shelf : Shelf) (N : Numbering ρ) : Request → Arena ρ → List Call
  | .number p m parent, a => N.calls m (some (identity shelf p.1 p.2 m parent)) parent a
  | _, _ => []

/-- The calls that come next, where something has come out. -/
def callsAfter {α : Type} (next : Arena ρ → List Call) :
    Except GrammarProblem (α × Arena ρ) → List Call
  | .ok (_, b) => next b
  | .error _ => []

/-- The calls that requests lead to, as long as none breaks off. -/
def callsAlong (shelf : Shelf) (N : Numbering ρ) : List Request → Arena ρ → List Call
  | [], _ => []
  | r :: rs, a => r.calls shelf N a ++
      callsAfter (fun b => callsAlong shelf N rs b) (answer shelf N.run r a)

/-- The calls that are made to number a mode inside a parent, itself the first one. -/
def calls (shelf : Shelf) (foldCase : Bool) :
    Nat → Mode → Option Identity → Option Nat → Arena ρ → List Call
  | 0, _, _, _, _ => []
  | depth + 1, m, i, parent, a =>
    match i.bind a.number? with
    | some _ => [⟨i, false⟩]
    | none => ⟨i, true⟩ ::
      match (ownFields foldCase m (parent.map a.terminator) :
          Except GrammarProblem (CompiledMode ρ)) with
      | .error _ => []
      | .ok own => callsAlong shelf ⟨compileMode shelf foldCase depth, calls shelf foldCase depth⟩
          (requests shelf a.modes.size m parent) (a.add own i)

/-! ### Accounts -/

/-- What makes the modes one and the same that calls have numbered, the root aside. -/
def compiled (cs : List Call) : List Identity :=
  cs.filterMap fun c => if c.isNew then c.identity else none

theorem compiled_append (cs cs' : List Call) : compiled (cs ++ cs') = compiled cs ++ compiled cs' :=
  List.filterMap_append

theorem compiled_new (i : Option Identity) (cs : List Call) :
    compiled (⟨i, true⟩ :: cs) = i.toList ++ compiled cs := by
  cases i <;> rfl

/-- What calls that start from an arena have to do with what comes of them: they number modes that
are not known there, each once, and these are known in the arena that comes of it, as many as it has
got more. -/
structure Accounts (shelf : Shelf) (a : Arena ρ) (cs : List Call) {α : Type}
    (result : Except GrammarProblem (α × Arena ρ)) : Prop where
  nodup : (compiled cs).Nodup
  unknown : ∀ i ∈ compiled cs, a.number? i = none
  identifies : ∀ i ∈ compiled cs, ∃ m parent, Identifies shelf m parent i
  known : ∀ v b, result = .ok (v, b) →
    ∀ i, b.number? i = none ↔ a.number? i = none ∧ i ∉ compiled cs
  size : ∀ v b, result = .ok (v, b) → b.modes.size = a.modes.size + cs.countP (·.isNew)

namespace Accounts

variable {shelf : Shelf} {a : Arena ρ} {cs : List Call} {α β : Type}

/-- Where nothing is called nothing is numbered. -/
theorem nil {result : Except GrammarProblem (α × Arena ρ)}
    (h : ∀ v b, result = .ok (v, b) → b.known = a.known ∧ b.modes.size = a.modes.size) :
    Accounts shelf a [] result where
  nodup := List.nodup_nil
  unknown := nofun
  identifies := nofun
  known v b hb i := by
    have hknown : b.number? i = a.number? i := by
      unfold Arena.number?
      rw [(h v b hb).1]
    rw [hknown]
    exact ⟨fun ha => ⟨ha, nofun⟩, fun ha => ha.1⟩
  size v b hb := (h v b hb).2

/-- Calls that follow each other. -/
theorem bind {x : Compiling ρ α} {f : α → Compiling ρ β} {next : Arena ρ → List Call}
    (h : Accounts shelf a cs (x a))
    (hf : ∀ v b, x a = .ok (v, b) → Accounts shelf b (next b) (f v b)) :
    Accounts shelf a (cs ++ callsAfter next (x a)) ((x >>= f) a) := by
  change Accounts shelf a _ (x a >>= fun p => f p.1 p.2)
  cases hx : x a with
  | error cause =>
    rw [callsAfter, List.append_nil]
    exact ⟨h.nodup, h.unknown, h.identifies, nofun, nofun⟩
  | ok p =>
    obtain ⟨v, b⟩ := p
    have hnext := hf v b hx
    have hknown := h.known v b hx
    have hsize := h.size v b hx
    change Accounts shelf a (cs ++ next b) (f v b)
    refine ⟨?_, ?_, ?_, fun w c hc i => ?_, fun w c hc => ?_⟩
    · rw [compiled_append]
      refine h.nodup.append hnext.nodup fun i hi hi' => ?_
      have hnew := hnext.unknown i hi'
      exact ((hknown i).mp hnew).2 hi
    · intro i hi
      rcases List.mem_append.mp (compiled_append cs _ ▸ hi) with hi | hi
      · exact h.unknown i hi
      · exact ((hknown i).mp (hnext.unknown i hi)).1
    · intro i hi
      rcases List.mem_append.mp (compiled_append cs _ ▸ hi) with hi | hi
      · exact h.identifies i hi
      · exact hnext.identifies i hi
    · rw [hnext.known w c hc, hknown, compiled_append, List.mem_append, not_or, and_assoc]
    · rw [hnext.size w c hc, hsize, List.countP_append, Nat.add_assoc]

/-- Calls after which something is done without any call. -/
theorem bind_nil {x : Compiling ρ α} {f : α → Compiling ρ β} (h : Accounts shelf a cs (x a))
    (hf : ∀ v b w c, f v b = .ok (w, c) → c.known = b.known ∧ c.modes.size = b.modes.size) :
    Accounts shelf a cs ((x >>= f) a) := by
  have hnil : callsAfter (fun _ => []) (x a) = [] := by cases x a <;> rfl
  have hbind := h.bind fun v b _ => .nil fun w c hc => hf v b w c hc
  rwa [hnil, List.append_nil] at hbind

/-- A mode whose fields are refused. -/
theorem refused {i : Option Identity} (hi : i.bind a.number? = none)
    (hid : ∀ j, i = some j → ∃ m parent, Identifies shelf m parent j) (cause : GrammarProblem) :
    Accounts shelf a [⟨i, true⟩] (.error cause : Except GrammarProblem (α × Arena ρ)) := by
  have hmem : ∀ {j}, j ∈ compiled [⟨i, true⟩] → i = some j := by
    intro j hj
    rw [compiled_new, compiled, List.filterMap_nil, List.append_nil] at hj
    exact Option.mem_toList.mp hj
  refine ⟨?_, fun j hj => ?_, fun j hj => hid j (hmem hj), nofun, nofun⟩
  · cases i <;> simp [compiled]
  · rw [hmem hj] at hi
    exact hi

/-- A mode that is added, and the calls that follow. -/
theorem add {own : CompiledMode ρ} {i : Option Identity}
    {result : Except GrammarProblem (α × Arena ρ)} (hi : i.bind a.number? = none)
    (hid : ∀ j, i = some j → ∃ m parent, Identifies shelf m parent j)
    (h : Accounts shelf (a.add own i) cs result) : Accounts shelf a (⟨i, true⟩ :: cs) result := by
  have hadd := fun j => a.number?_add own i j
  have hbefore : ∀ j, (a.add own i).number? j = none ↔ a.number? j = none ∧ j ∉ i.toList := by
    intro j
    rw [hadd]
    cases i with
    | none => simp
    | some i =>
      by_cases hj : i = j
      · simp [hj]
      · simp [hj, Ne.symm hj]
  refine ⟨?_, ?_, ?_, fun v b hb j => ?_, fun v b hb => ?_⟩
  · rw [compiled_new]
    refine List.Nodup.append (by cases i <;> simp) h.nodup fun j hj hj' => ?_
    exact ((hbefore j).mp (h.unknown j hj')).2 hj
  · intro j hj
    rcases List.mem_append.mp (compiled_new i cs ▸ hj) with hj | hj
    · rw [Option.mem_toList] at hj
      rw [hj] at hi
      exact hi
    · exact ((hbefore j).mp (h.unknown j hj)).1
  · intro j hj
    rcases List.mem_append.mp (compiled_new i cs ▸ hj) with hj | hj
    · exact hid j (Option.mem_toList.mp hj)
    · exact h.identifies j hj
  · rw [h.known v b hb, hbefore, compiled_new, List.mem_append, not_or, and_assoc]
  · rw [h.size v b hb, Arena.size_add, List.countP_cons_of_pos rfl]
    omega

end Accounts

/-- A way to number modes whose calls account for all that it does. -/
def Numbering.Accounted (shelf : Shelf) (N : Numbering ρ) : Prop :=
  ∀ (m : Mode) (i : Option Identity) (parent : Option Nat) (a : Arena ρ),
    (∀ j, i = some j → ∃ m parent, Identifies shelf m parent j) →
      Accounts shelf a (N.calls m i parent a) (N.run m i parent a)

section Runs

variable {shelf : Shelf} {N : Numbering ρ}

theorem accounts_answer (hN : N.Accounted shelf) {m : Mode} {r : Request} (hr : r.IsFor shelf m)
    (a : Arena ρ) : Accounts shelf a (r.calls shelf N a) (answer shelf N.run r a) := by
  cases r with
  | own id =>
    refine .nil fun v b hb => ?_
    cases hb
    exact ⟨rfl, rfl⟩
  | refuse cause => exact .nil fun v b hb => nomatch hb
  | number p source parent =>
    refine hN source _ parent a fun j hj => ?_
    exact ⟨source, parent, p.1, p.2, hr.2, (Option.some.inj hj).symm⟩

theorem accounts_callsAlong (hN : N.Accounted shelf) {m : Mode} :
    ∀ (rs : List Request) (a : Arena ρ), (∀ r ∈ rs, r.IsFor shelf m) →
      Accounts shelf a (callsAlong shelf N rs a) (rs.mapM (answer shelf N.run) a)
  | [], a, _ => .nil fun v b hb => by
    cases hb
    exact ⟨rfl, rfl⟩
  | r :: rs, a, hrs => by
    obtain ⟨hr, hrs⟩ := List.forall_mem_cons.mp hrs
    rw [List.mapM_cons, callsAlong]
    refine (accounts_answer hN hr a).bind fun id b _ => ?_
    refine (accounts_callsAlong hN rs b hrs).bind_nil fun ids c w d hd => ?_
    cases hd
    exact ⟨rfl, rfl⟩

theorem known_linkNew {foldCase : Bool} {m : Mode} {id w : Nat} {ids : List Nat} {a b : Arena ρ}
    (h : linkNew foldCase m id ids a = .ok (w, b)) :
    b.known = a.known ∧ b.modes.size = a.modes.size := by
  have hlink : ∀ children starts, linkTo foldCase id children starts a = .ok (w, b) →
      b.known = a.known ∧ b.modes.size = a.modes.size := by
    intro children starts h
    obtain ⟨_, _, hget, h⟩ := Compiling.of_bind_ok h
    cases hget
    obtain ⟨matcher, c, hmatcher, hlink⟩ := Compiling.of_bind_ok h
    obtain ⟨-, hc⟩ := Compiling.of_lift_ok hmatcher
    subst hc
    cases hlink
    exact ⟨rfl, Arena.size_link ..⟩
  unfold linkNew at h
  split at h <;> exact hlink _ _ h

/-- The way to number modes that follows them so deep. -/
def numbering (ρ : Type) [Engine ρ] (shelf : Shelf) (foldCase : Bool) (depth : Nat) : Numbering ρ :=
  ⟨compileMode shelf foldCase depth, calls shelf foldCase depth⟩

/-- **The calls that number a mode account for all that is done**, however deep modes are followed.
-/
theorem accounted_numbering (shelf : Shelf) (foldCase : Bool) :
    ∀ depth, (numbering ρ shelf foldCase depth).Accounted shelf
  | 0 => fun _ _ _ _ _ => .nil nofun
  | depth + 1 => by
    intro m i parent a hi
    change Accounts shelf a (calls shelf foldCase (depth + 1) m i parent a)
      (compileMode shelf foldCase (depth + 1) m i parent a)
    rw [compileMode_succ, calls]
    cases hn : i.bind a.number? with
    | some n =>
      refine ⟨List.nodup_nil, nofun, nofun, fun v b hb j => ?_, fun v b hb => ?_⟩
      · cases hb
        exact ⟨fun ha => ⟨ha, nofun⟩, fun ha => ha.1⟩
      · cases hb
        rfl
    | none =>
      simp only [numberNew_apply]
      cases (ownFields foldCase m (parent.map a.terminator) :
          Except GrammarProblem (CompiledMode ρ)) with
      | error cause => exact .refused hn hi cause
      | ok own =>
        refine .add hn hi (.bind_nil ?_ fun _ _ _ _ h => known_linkNew h)
        exact accounts_callsAlong (accounted_numbering shelf foldCase depth) _ _
          (isFor_requests shelf)

end Runs

end Language

end CodeMarkup
