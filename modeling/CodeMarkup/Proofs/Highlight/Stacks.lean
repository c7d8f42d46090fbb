import CodeMarkup.Proofs.Highlight.Nesting
import CodeMarkup.Proofs.Highlight.Seated
import CodeMarkup.Proofs.Language.Registered

/-! # Stacks to go on from

A stack of open modes is one of a language if its outermost frame is that of the root, as it is
before any code, and each other mode is a child of the mode it is on or follows such a child, perhaps
with others between (`Language.Stacks`). A step keeps to this, since the root of a compiled grammar has
no end and so remembers nothing (`Scan.stacks_step`). So do whole runs, from scratch or from a stack
that another run has ended with, and every stack that comes out can be gone on from
(`stacks_highlight`). -/

namespace CodeMarkup

open Scan (State)

variable {ρ : Type} [Engine ρ]

/-! ### Stacks of a language -/

namespace Language

/-- A mode may be on top of another one: a child of it, or what follows such a child. -/
def Holds (l : Language ρ) (outer inner : Nat) : Prop :=
  ∃ child ∈ (l.mode outer).children,
    Relation.ReflTransGen (fun id next => (l.mode id).starts = some next) child inner

theorem holds_child {l : Language ρ} {outer child : Nat} (h : child ∈ (l.mode outer).children) :
    l.Holds outer child := ⟨child, h, .refl⟩

theorem Holds.next {l : Language ρ} {outer inner next : Nat} (h : l.Holds outer inner)
    (hnext : (l.mode inner).starts = some next) : l.Holds outer next := by
  obtain ⟨child, hchild, hreaches⟩ := h
  exact ⟨child, hchild, hreaches.tail hnext⟩

theorem Linking.lt_of_holds {l : Language ρ} (hl : l.Linking) {outer inner : Nat}
    (h : l.Holds outer inner) : inner < l.size := by
  obtain ⟨child, hchild, hreaches⟩ := h
  rcases hreaches.cases_tail with rfl | ⟨id, -, hstarts⟩
  · exact hl.children hchild
  · exact hl.starts hstarts

/-- Frames of modes that are open together, innermost first. -/
structure Stacks (l : Language ρ) (frames : List (Frame ρ)) : Prop where
  root : frames.getLast? = some (Frame.new 0)
  chain : (frames.map Frame.mode).IsChain fun inner outer => l.Holds outer inner

namespace Stacks

variable {l : Language ρ}

theorem scratch : l.Stacks [Frame.new 0] := ⟨rfl, .singleton 0⟩

variable {frames : List (Frame ρ)} (h : l.Stacks frames)

include h

theorem ne_nil : frames ≠ [] := by
  rintro rfl
  cases h.root

theorem isSome_mode? (hl : l.Linking) : ∀ f ∈ frames, (l.mode? f.mode).isSome := by
  obtain ⟨hroot, hchain⟩ := h
  induction frames with
  | nil => nofun
  | cons f fs ih =>
    have hsome {id : Nat} (hid : id < l.size) : (l.mode? id).isSome := by
      rw [mode?_eq_some hid]
      rfl
    cases fs with
    | nil =>
      obtain rfl := Option.some.inj hroot
      exact List.forall_mem_singleton.mpr (hsome l.size_pos)
    | cons g fs =>
      obtain ⟨hf, hrest⟩ := List.isChain_cons_cons.mp hchain
      rw [List.getLast?_cons_cons] at hroot
      exact List.forall_mem_cons.mpr ⟨hsome (hl.lt_of_holds hf), ih hroot hrest⟩

/-- **A stack of a language can be gone on from in that language.** -/
theorem framesFor? (hl : l.Linking) (key : String) :
    ModeStack.framesFor? ⟨key, frames⟩ key l = some frames := by
  have hall := List.all_eq_true.mpr (h.isSome_mode? hl)
  rw [ModeStack.framesFor?, if_pos]
  simp [h.root, hall, Frame.new]

theorem eq_scratch (hone : frames.length = 1) : frames = [Frame.new 0] := by
  obtain ⟨f, rfl⟩ := List.length_eq_one_iff.mp hone
  exact congrArg (fun g => [g]) (Option.some.inj h.root)

end Stacks

end Language

/-! ### Runs -/

namespace Scan

variable {env : Setting ρ}

/-- The frame of a mode without end stays as it is when an end is looked for. -/
theorem getLast?_endingFrame {f : Frame ρ} (hends : (env.language.mode f.mode).endRegex = none)
    (hbound : f.endOverride = none) {found : Found} : ∀ {frames frames' : List (Frame ρ)}
      {place : Option Nat}, endingFrame env found frames = .ok (place, frames') →
        frames.getLast? = some f → frames'.getLast? = some f
  | [], _, _, _, hlast => by cases hlast
  | [g], frames', place, h, hlast => by
    -- the frame itself has no end, so no guard changes what it remembers
    obtain rfl : g = f := Option.some.inj hlast
    have hnot : endsAt env found g = .ok (false, g) := by
      rw [endsAt]
      dsimp only
      rw [hbound, hends]
      rfl
    rw [endingFrame, hnot] at h
    dsimp only at h
    rw [List.isEmpty_nil, Bool.not_true, Bool.and_false] at h
    cases h
    rfl
  | g :: g' :: fs, frames', place, h, hlast => by
    rw [List.getLast?_cons_cons] at hlast
    have hput (k : Frame ρ) {rest : List (Frame ρ)} (hrest : rest.getLast? = some f) :
        (k :: rest).getLast? = some f := by
      rw [List.getLast?_cons, hrest]
      rfl
    rw [endingFrame] at h
    split at h
    · cases h
    · cases h
      exact hput _ hlast
    · split at h
      · split at h
        · cases h
        · next hrest =>
          cases h
          exact hput _ (getLast?_endingFrame hends hbound hrest hlast)
      · cases h
        exact hput _ hlast

section Stacks

variable (hl : env.language.Linking) (hroot : (env.language.mode 0).endRegex = none)

include hl hroot

/-- **A step leads from a stack of the language to one.** -/
theorem stacks_step {s s' : State ρ} (h : step env s = .ok (some s'))
    (hs : env.language.Stacks s.frames) : env.language.Stacks s'.frames := by
  obtain ⟨seen, hseen, hlast⟩ := (reframes_step h).getLast? hs.ne_nil
  refine ⟨?_, isChain_step hl (fun _ _ _ => Language.holds_child) Language.Holds.next h hs.chain⟩
  rw [hlast]
  rcases hseen with rfl | ⟨found, place, hending⟩
  · exact hs.root
  · exact getLast?_endingFrame hroot rfl hending hs.root

theorem stacks_leads {s s' : State ρ} (h : Leads env s s')
    (hs : env.language.Stacks s.frames) : env.language.Stacks s'.frames := by
  induction h with
  | refl => exact hs
  | tail _ hstep ih => exact stacks_step hl hroot hstep ih

theorem stacks_run {steps : Nat} {s s' : State ρ} (hs : env.language.Stacks s.frames)
    (h : run env steps s = .ok s') : env.language.Stacks s'.frames := by
  obtain ⟨t, hleads, -, hfinish⟩ := exists_leads_of_run h
  rw [frames_of_control (control_finish hfinish)]
  exact stacks_leads hl hroot hleads hs

end Stacks

end Scan

/-! ### Highlighting -/

/-- What code in a language can be gone on from: nothing, or what has come out when code was gone
through before, in whatever way. -/
inductive Returned (key : String) (l : Language ρ) : Option (ModeStack ρ) → Prop
  | scratch : Returned key l none
  | again {r : Registry ρ} {o : Options} {depth : Nat} {name code : String} {ignoreIllegals : Bool}
      {continuation : Option (ModeStack ρ)} {out : Outcome ρ} :
      r.resolve name = some (key, l) → Returned key l continuation →
      highlightWithin r o depth name code ignoreIllegals continuation = .ok out →
      Returned key l out.top

section Compiled

variable {l : Language ρ} (hl : l.Linking) (hroot : (l.mode 0).endRegex = none) {key : String}

theorem stacks_startingFrames {continuation : Option (ModeStack ρ)}
    (h : ∀ st ∈ continuation, l.Stacks st.frames) :
    l.Stacks (startingFrames key l continuation) := by
  unfold startingFrames
  cases hc : continuation.bind (·.framesFor? key l) with
  | none => exact .scratch
  | some frames =>
    obtain ⟨st, hst, hframes⟩ := Option.bind_eq_some_iff.mp hc
    unfold ModeStack.framesFor? at hframes
    split at hframes
    · cases hframes
      exact h st hst
    · cases hframes

include hl hroot

/-- What comes out of going through code that has started from a stack of the language. -/
theorem stacks_highlightWithin {r : Registry ρ} {o : Options} {depth : Nat} {name code : String}
    {ignoreIllegals : Bool} {continuation : Option (ModeStack ρ)} {out : Outcome ρ}
    (hname : r.resolve name = some (key, l))
    (hstacks : l.Stacks (startingFrames key l continuation))
    (h : highlightWithin r o depth name code ignoreIllegals continuation = .ok out) :
    ∀ top ∈ out.top, top.language = key ∧ l.Stacks top.frames := by
  intro top htop
  obtain ⟨depth, key', l', hname', hout⟩ := exists_outcome_of_top h htop
  cases hname.symm.trans hname'
  obtain ⟨s, hrun, rfl⟩ := Scan.outcome_eq_ok hout
  cases htop
  have hinitial : l.Stacks (Scan.initial l (startingFrames key l continuation)).frames := by
    rwa [Language.frames_initial]
  exact ⟨rfl, Scan.stacks_run hl hroot hinitial hrun⟩

theorem Returned.stacks {continuation : Option (ModeStack ρ)} (h : Returned key l continuation) :
    ∀ st ∈ continuation, st.language = key ∧ l.Stacks st.frames := by
  induction h with
  | scratch => nofun
  | again hname _ hout ih =>
    exact stacks_highlightWithin hl hroot hname (stacks_startingFrames fun st hst => (ih st hst).2)
      hout

end Compiled

/-- **Open modes make a stack of the language at any time**, and what comes out can be gone on from.
Whether code is gone through from scratch or from what has come out before, the root stays at the
bottom and is never taken off, and each other mode is a child of the one it is on or follows such a
child. Every stack that comes out is taken when it is given back for that language; if it has but the
root, going on from it is the same as starting from scratch. -/
theorem stacks_highlight {r : Registry ρ} (hr : r.Built) {name key : String} {l : Language ρ}
    (hname : r.resolve name = some (key, l)) {continuation : Option (ModeStack ρ)}
    (hcontinuation : Returned key l continuation) :
    (∀ env : Setting ρ, env.language = l → ∀ s, Scan.Leads env
        (Scan.initial l (startingFrames key l continuation)) s →
      l.Stacks s.frames ∧ ∀ s', Scan.step env s = .ok (some s') →
        ∃ ended < s.frames.length, ∃ begun : Option Nat, s'.frames.map Frame.mode =
          begun.toList ++ (s.frames.map Frame.mode).drop ended) ∧
    ∀ o depth code ignoreIllegals out top,
      highlightWithin r o depth name code ignoreIllegals continuation = .ok out →
      out.top = some top → l.Stacks top.frames ∧ top.framesFor? key l = some top.frames ∧
        (top.depth = 1 → ∀ (r' : Registry ρ) o' name' code' ignoreIllegals',
          r'.resolve name' = some (key, l) →
            highlight r' o' name' code' ignoreIllegals' (some top) =
              highlight r' o' name' code' ignoreIllegals' none) := by
  obtain ⟨g, written, hcompile⟩ := hr.compiled (Registry.find?_of_resolve hname)
  obtain ⟨c, b, hrooted⟩ := Language.exists_rooted hcompile
  have hl := hrooted.linking
  have hroot := hrooted.root_ends.2.2
  have hstart : l.Stacks (startingFrames key l continuation) :=
    stacks_startingFrames fun st hst => (hcontinuation.stacks hl hroot st hst).2
  refine ⟨fun env henv s hs => ?_, fun o depth code ignoreIllegals out top h htop => ?_⟩
  · subst henv
    have hstacks := Scan.stacks_leads hl hroot hs (by rwa [Language.frames_initial])
    refine ⟨hstacks, fun s' hstep => ?_⟩
    have hpos : 0 < s.course.modes.length := by
      rw [State.course, List.length_map]
      exact List.length_pos_iff.mpr hstacks.ne_nil
    obtain ⟨ended, begun, hturn⟩ := Scan.turn_step hpos hstep
    exact ⟨ended, by simpa [State.course] using hturn.lt, begun, hturn.modes⟩
  · obtain ⟨rfl, hstacks⟩ := stacks_highlightWithin hl hroot hname hstart h top htop
    have hfits : top.framesFor? top.language l = some top.frames := hstacks.framesFor? hl top.language
    refine ⟨hstacks, hfits, fun hone r' o' name' code' ignoreIllegals' hname' => ?_⟩
    have hsame : startingFrames top.language l (some top) = startingFrames top.language l none := by
      rw [startingFrames, Option.bind_some, hfits, hstacks.eq_scratch hone]
      rfl
    rw [highlight_eq, highlight_eq, highlightWithin_succ, highlightWithin_succ, hname']
    dsimp only
    rw [hsame]

/-- Behind a string that has not ended two modes are open, and further code is gone through from
there. -/
theorem stacks_highlight_quoted : ∃ (r : Registry Regex.Tried) (l : Language Regex.Tried)
    (top : ModeStack Regex.Tried), r.Built ∧ r.resolve "Quoted" = some (Registry.fold "Quoted", l) ∧
      Returned (Registry.fold "Quoted") l (some top) ∧ top.depth = 2 ∧
        ∀ env : Setting Regex.Tried, env.language = l → ∀ s, Scan.Leads env
            (Scan.initial l (startingFrames (Registry.fold "Quoted") l (some top))) s →
          l.Stacks s.frames := by
  obtain ⟨l, hl, h⟩ : ∃ l, Language.compile Registry.quoted "Quoted" = .ok l ∧
      (highlight (Registry.empty.put "Quoted" l) {} "Quoted" "\"a" true none :
        Except Problem (Outcome Regex.Tried)).toOption.any fun out =>
          out.top.any fun top => top.depth == 2 := exists_of_any (by decide +kernel)
  obtain ⟨out, hout, htop⟩ := exists_of_any h
  obtain ⟨top, htop, hdepth⟩ := (Option.any_eq_true _ _).mp htop
  obtain ⟨hr, hname⟩ := Registry.built_put hl
  have hreturned : Returned (Registry.fold "Quoted") l (some top) := htop ▸ .again hname .scratch hout
  exact ⟨_, l, top, hr, hname, hreturned, beq_iff_eq.mp hdepth, fun env henv s hs =>
    ((stacks_highlight hr hname hreturned).1 env henv s hs).1⟩

end CodeMarkup
