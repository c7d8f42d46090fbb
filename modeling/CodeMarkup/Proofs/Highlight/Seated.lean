import CodeMarkup.Proofs.Grammar.Dependence
import CodeMarkup.Proofs.Highlight.InRange

/-! # How open modes sit on each other

A mode is opened on top of the one that contains it, or, where it follows another one, on top of the
one that this was on. In a grammar in which modes that contain themselves are not followed by modes
whose end depends on the mode around them (`Language.FreelyFollowed`), every open mode is then in a
place for which it has been compiled, or in one where this makes no difference (`Language.Sits`).
This is so in all stacks that going through code leads to, from scratch or from such a stack on
(`Language.seated_of_open`). -/

namespace CodeMarkup

variable {ρ : Type} [Engine ρ]

open Scan (State)

/-! ### One mode on another -/

namespace Language

section Sitting

variable (g : Grammar) (l : Language ρ)

/-- No mode that contains itself is followed by one whose end depends on the mode around it. -/
def FreelyFollowed : Prop :=
  ∀ {id : Nat} {m : Mode} {around : Option Nat} {key : Key}, Stands g l id m around →
    .self ∈ m.contains.getD [] → m.starts = some key →
      g.shelf.dependsOnParent (g.shelf.mode key) = false

/-- One mode is where it can be on another one. -/
inductive Sits : Nat → Nat → Prop
  /-- It stands inside the other one. -/
  | inside {id : Nat} {m : Mode} {p : Nat} : Stands g l id m (some p) → Sits id p
  /-- Its end does not depend on the mode around it. -/
  | freely {id : Nat} {m : Mode} {around p : Nat} : Stands g l id m (some around) →
      g.shelf.dependsOnParent m = false → Sits id p
  /-- It is the other one, which contains itself. -/
  | itself {id : Nat} {m : Mode} {around : Nat} : Stands g l id m (some around) →
      .self ∈ m.contains.getD [] → Sits id id

/-- Modes of which each is where it can be, innermost first. -/
inductive Seated : List Nat → Prop
  | root : Seated [0]
  | on {id p : Nat} {ids : List Nat} : Sits g l id p → Seated (p :: ids) → Seated (id :: p :: ids)

variable {g l}

/-- A grammar in which no mode follows another one. -/
theorem freelyFollowed_of_starts (hroot : g.root.starts = none)
    (hshelf : ∀ m ∈ g.shelf.modes, m.starts = none) : FreelyFollowed g l := by
  have hmode : ∀ key, (g.shelf.mode key).starts = none := by
    intro key
    unfold Shelf.mode
    cases hkey : g.shelf.modes[key]? with
    | none => rfl
    | some m => exact hshelf m (Array.mem_of_getElem? hkey)
  intro id m around key hm _ hkey
  have hstarts := hm.of_written (P := fun m => m.starts = none) hroot hmode fun _ _ hbase hoverlay => by
    rw [Mode.merge, hbase, hoverlay]
    rfl
  rw [hstarts] at hkey
  cases hkey

theorem Sits.exists_stands {id p : Nat} (h : Sits g l id p) :
    ∃ m around, Stands g l id m (some around) := by
  cases h with
  | inside h => exact ⟨_, _, h⟩
  | freely h _ => exact ⟨_, _, h⟩
  | itself h _ => exact ⟨_, _, h⟩

theorem Seated.stands_of_mem {ids : List Nat} (h : Seated g l ids) :
    ∀ id ∈ ids, ∃ m around, Stands g l id m around := by
  induction h with
  | root => exact List.forall_mem_singleton.mpr ⟨_, _, .root⟩
  | on hid _ ih =>
    obtain ⟨m, around, hm⟩ := hid.exists_stands
    exact List.forall_mem_cons.mpr ⟨⟨m, some around, hm⟩, ih⟩

variable {c b : Arena ρ}

/-- A child sits on the mode that contains it. -/
theorem Rooted.sits_child (hr : Rooted g l c b) (hroot : .self ∉ g.root.contains.getD [])
    {id n : Nat} {m : Mode} {around : Option Nat} (hm : Stands g l id m around)
    (hn : n ∈ (l.mode id).children) : Sits g l n id := by
  obtain ⟨cm, hmirror⟩ := hr.mirrors hm
  rw [hmirror.mode_eq] at hn
  obtain ⟨k, hk, rfl⟩ := List.getElem_of_mem hn
  obtain ⟨hlength, hfits⟩ := List.forall₂_iff_get.mp hmirror.children
  have hk' : k < (g.shelf.expansion (m.contains.getD [])).length := hlength ▸ hk
  have hfit := hfits k hk' hk
  have hsource := List.getElem?_eq_getElem hk'
  simp only [List.get_eq_getElem] at hfit
  generalize (g.shelf.expansion (m.contains.getD []))[k] = source at hfit hsource
  cases source with
  | some source => exact .inside hfit
  | none =>
    have hself := Shelf.self_mem_of_expansion hsource
    rw [show cm.children[k] = id from hfit]
    cases around with
    | none =>
      obtain ⟨-, rfl⟩ := hr.standsIn hm
      exact absurd hself hroot
    | some around => exact .itself hm hself

/-- What follows a mode sits where that one did. -/
theorem Rooted.sits_next (hr : Rooted g l c b) (hg : FreelyFollowed g l) {id p n : Nat}
    (h : Sits g l id p) (hn : (l.mode id).starts = some n) : Sits g l n p := by
  have hnext : ∀ {m : Mode} {around : Nat}, Stands g l id m (some around) →
      ∃ key, m.starts = some key ∧ Stands g l n (g.shelf.mode key) (some around) := by
    intro m around hm
    obtain ⟨cm, hmirror⟩ := hr.mirrors hm
    rw [hmirror.mode_eq] at hn
    have hstarts := hmirror.starts
    rw [hn, Option.isSome_some] at hstarts
    obtain ⟨key, hkey⟩ := Option.isSome_iff_exists.mp hstarts.symm
    exact ⟨key, hkey, .next hm hmirror.found hkey hn⟩
  cases h with
  | inside hm =>
    obtain ⟨key, -, hnext⟩ := hnext hm
    exact .inside hnext
  | freely hm hfree =>
    obtain ⟨key, hkey, hnext⟩ := hnext hm
    exact .freely hnext (Shelf.dependsOnParent_starts hfree hkey)
  | itself hm hself =>
    obtain ⟨key, hkey, hnext⟩ := hnext hm
    exact .freely hnext (hg hm hself hkey)

theorem seated_iff : ∀ {ids : List Nat},
    Seated g l ids ↔ ids.getLast? = some 0 ∧ ids.IsChain (Sits g l)
  | [] => ⟨nofun, fun h => nomatch h.1⟩
  | [id] => by
    constructor
    · rintro ⟨⟩
      exact ⟨rfl, .singleton 0⟩
    · rintro ⟨hroot, -⟩
      obtain rfl : id = 0 := Option.some.inj hroot
      exact .root
  | id :: p :: ids => by
    rw [List.getLast?_cons_cons, List.isChain_cons_cons]
    constructor
    · rintro (_ | ⟨hid, h⟩)
      obtain ⟨hroot, hchain⟩ := seated_iff.mp h
      exact ⟨hroot, hid, hchain⟩
    · rintro ⟨hroot, hid, hchain⟩
      exact .on hid (seated_iff.mpr ⟨hroot, hchain⟩)

end Sitting

end Language

/-! ### Ends that are known -/

namespace Scan

/-- No open mode has an end that was only known at its begin. -/
def Unbound (frames : List (Frame ρ)) : Prop := ∀ f ∈ frames, f.endOverride = none

variable {env : Setting ρ}

theorem endOverride_endsAt {found : Found} {f f' : Frame ρ} {ends : Bool}
    (h : endsAt env found f = .ok (ends, f')) : f'.endOverride = f.endOverride := by
  unfold endsAt at h
  dsimp only at h
  split at h
  · cases h
    rfl
  · split at h
    · cases h
    · cases h
      rfl
    · split at h <;> cases h <;> rfl

theorem unbound_endingFrame {found : Found} : ∀ {frames frames' : List (Frame ρ)}
    {place : Option Nat}, endingFrame env found frames = .ok (place, frames') →
      Unbound frames → Unbound frames'
  | [], frames', place, h, hs => by
    cases h
    exact hs
  | f :: fs, frames', place, h, hs => by
    obtain ⟨hf, hfs⟩ := List.forall_mem_cons.mp hs
    unfold endingFrame at h
    split at h
    · cases h
    · next f' hends =>
      cases h
      exact List.forall_mem_cons.mpr ⟨(endOverride_endsAt hends).trans hf, hfs⟩
    · next f' hends =>
      have hf' : f'.endOverride = none := (endOverride_endsAt hends).trans hf
      split at h
      · split at h
        · cases h
        · next ending fs' hrest =>
          cases h
          exact List.forall_mem_cons.mpr ⟨hf', unbound_endingFrame hrest hfs⟩
      · cases h
        exact List.forall_mem_cons.mpr ⟨hf', hfs⟩

/-- A step binds no end, if no mode ends as it begins. -/
theorem unbound_step (hl : ∀ id, (env.language.mode id).endSameAsBegin = false) {s s' : State ρ}
    (h : step env s = .ok (some s')) (hs : Unbound s.frames) : Unbound s'.frames := by
  obtain ⟨seen, n, begun, hseen, -, hframes, hends⟩ := reframes_step h
  have hunbound : Unbound seen := by
    rcases hseen with rfl | ⟨found, place, hending⟩
    · exact hs
    · exact unbound_endingFrame hending hs
  rw [hframes]
  intro f hf
  rcases List.mem_append.mp hf with hf | hf
  · rw [← Option.not_isSome_iff_eq_none]
    intro hbound
    obtain ⟨id, hid⟩ := hends f (Option.mem_toList.mp hf) hbound
    rw [hl id] at hid
    cases hid
  · exact hunbound f (List.mem_of_mem_drop hf)

end Scan

/-! ### Stacks that going through code leads to -/

namespace Language

section Open

variable {g : Grammar} {l : Language ρ} {c b : Arena ρ}

/-- **A step leaves every open mode where it can be.** -/
theorem Rooted.seated_step (hr : Rooted g l c b) (hroot : .self ∉ g.root.contains.getD [])
    (hg : FreelyFollowed g l) {env : Setting ρ} (henv : env.language = l) {s s' : State ρ}
    (h : Scan.step env s = .ok (some s')) (hs : Seated g l s.course.modes) :
    Seated g l s'.course.modes := by
  subst henv
  obtain ⟨hlast, hchain⟩ := seated_iff.mp hs
  have hne : s.frames ≠ [] := by
    rintro hnil
    rw [State.course, hnil] at hlast
    cases hlast
  refine seated_iff.mpr ⟨(Scan.getLast?_modes_step h hne).trans hlast, ?_⟩
  refine Scan.isChain_step hr.linking (fun top htop id hid => ?_) (hr.sits_next hg) h hchain
  obtain ⟨m, around, hm⟩ := hs.stands_of_mem top (List.mem_of_mem_head? htop)
  exact hr.sits_child hroot hm hid

/-- The stacks of open modes that going through code leads to, from scratch or from such a stack
on. -/
inductive Open (l : Language ρ) : List (Frame ρ) → Prop
  | scratch : Open l [Frame.new 0]
  | later {env : Setting ρ} {frames : List (Frame ρ)} {s : State ρ} : env.language = l →
      Open l frames → Scan.Leads env (Scan.initial l frames) s → Open l s.frames

theorem frames_initial (l : Language ρ) (frames : List (Frame ρ)) :
    (Scan.initial l frames).frames = frames := by
  unfold Scan.initial
  induction frames.dropLast with
  | nil => rfl
  | cons f fs ih =>
    rw [List.foldr_cons]
    split <;> exact ih

/-- **In every stack that going through code leads to, all modes are where they can be**, and none
has an end that was only known at its begin, if no mode ends as it begins. -/
theorem seated_of_open {name : String} (h : compile g name = .ok l) (hg : FreelyFollowed g l)
    (hl : ∀ id, (l.mode id).endSameAsBegin = false) {frames : List (Frame ρ)}
    (hframes : Open l frames) : Seated g l (frames.map Frame.mode) ∧ Scan.Unbound frames := by
  obtain ⟨c, b, hr⟩ := exists_rooted h
  have hroot := not_self_mem_root h
  induction hframes with
  | scratch => exact ⟨.root, List.forall_mem_singleton.mpr rfl⟩
  | @later env frames s henv _ hleads ih =>
    induction hleads with
    | refl =>
      rw [frames_initial]
      exact ih
    | tail _ hstep ih =>
      refine ⟨hr.seated_step hroot hg henv hstep ih.1, ?_⟩
      exact Scan.unbound_step (fun id => henv ▸ hl id) hstep ih.2

end Open

end Language

end CodeMarkup
