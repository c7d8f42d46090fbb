import CodeMarkup.Proofs.Highlight.Lossless
import CodeMarkup.Proofs.Highlight.Seated
import CodeMarkup.Proofs.Language.Unions

/-! # Ends of open modes

Which end is looked for in a mode has been put together when the grammar was compiled; which of the
open modes ends is found out by going through them. Where all modes are where they can be, both say
the same: the end of the top mode matches where one of the open modes that may end there does, and
it matches what the own end of the innermost of these does alone (`Scan.ends_agree`).

A mode that contains itself and is followed by one that ends with its parent is not so: what follows
has been compiled for another place than it comes to stand in (`Scan.ends_disagree`). -/

namespace CodeMarkup

open Regex
open Pattern (Plain Independent Accepted isUnreferring flagged spanAlone?)
open Text (byteSize)

variable {ρ : Type} [Engine ρ]

/-! ### What terminators are put together from -/

theorem Pattern.independent_of_isUnreferring : ∀ (before : Nat) {sources : List String},
    (∀ source ∈ sources, Plain false source.toList ∧ isUnreferring source.toList) →
      Independent before sources
  | _, [], _ => trivial
  | _, source :: sources, h => by
    obtain ⟨hsource, hrest⟩ := List.forall_mem_cons.mp h
    exact ⟨hsource.1, Or.inr hsource.2, independent_of_isUnreferring _ hrest⟩

theorem barred_ne_empty {source : String} (h : source ≠ "") (sources : List String) :
    "|".intercalate (source :: sources) ≠ "" := by
  cases sources <;> simp [h]

/-- A terminator that has been put together is put together from the same patterns again. -/
theorem Language.barred_endsWithin (own : Option String) {sources : List String}
    (h : ∀ source ∈ sources, source ≠ "") :
    "|".intercalate (endsWithin own ("|".intercalate sources)) =
      "|".intercalate (own.toList ++ sources) := by
  unfold endsWithin
  cases sources with
  | nil => simp
  | cons source sources =>
    have hne := barred_ne_empty (h source List.mem_cons_self) sources
    cases own <;> simp [hne]

namespace Bounded

variable {foldCase : Bool} {m : Mode} {around : String} {cm : CompiledMode ρ}

/-- A mode that does not end with its parent has an end of its own, which is all. -/
theorem terminator_own (h : Bounded foldCase m around cm)
    (hwith : (m.endsWithParent == some true) = false) :
    cm.endsWithParent = false ∧ cm.terminator = "|".intercalate cm.endPattern.toList := by
  constructor
  · rw [h.endsWithParent]
    cases hm : m.endsWithParent with
    | none => rfl
    | some ends => cases ends <;> simp_all
  · rw [h.terminator]
    unfold Language.terminatorOf
    rw [hwith]
    cases cm.endPattern <;> simp

theorem terminator_with (h : Bounded foldCase m around cm) (hwith : m.endsWithParent = some true)
    {sources : List String} (hsources : around = "|".intercalate sources)
    (hne : ∀ source ∈ sources, source ≠ "") :
    cm.endsWithParent = true ∧
      cm.terminator = "|".intercalate (cm.endPattern.toList ++ sources) := by
  constructor
  · rw [h.endsWithParent, hwith, Option.getD_some]
  · rw [h.terminator, Language.terminatorOf_eq hwith, hsources, Language.barred_endsWithin _ hne]

end Bounded

namespace Language

/-- The ends of the open modes that may end at a place, innermost first: that of the top mode and, as
long as modes end with the mode around them, those of the modes below. -/
def endsOf (l : Language ρ) : List Nat → List String
  | [] => []
  | id :: ids =>
    (l.mode id).endPattern.toList ++ if (l.mode id).endsWithParent then l.endsOf ids else []

/-- A language whose ends can be told apart: they are plain patterns that refer to no group, they are
the same at every begin, no guard refuses them, the engine accepts what is put together from them,
and no mode that contains itself is followed by one whose end depends on the mode around it. -/
structure EndsPlainly (g : Grammar) (l : Language ρ) : Prop where
  bound : ∀ id, (l.mode id).endSameAsBegin = false
  unguarded : ∀ id, (l.mode id).onEnd = none
  ends : ∀ id source, (l.mode id).endPattern = some source →
    source ≠ "" ∧ Plain false source.toList ∧ isUnreferring source.toList
  accepted : ∀ id, (l.mode id).terminator ≠ "" →
    Accepted ρ g.caseInsensitive (l.mode id).terminator
  followed : FreelyFollowed g l

section Ends

variable {g : Grammar} {l : Language ρ} {c b : Arena ρ}

theorem Rooted.bounded (hr : Rooted g l c b) {id around : Nat} {m : Mode}
    (hm : Stands g l id m (some around)) :
    Bounded g.caseInsensitive m (l.mode around).terminator (l.mode id) := by
  obtain ⟨cm, hmirror⟩ := hr.mirrors hm
  have hb := (of_ownFields hmirror.own).bounded
  rw [hmirror.mode_eq]
  exact ⟨hb.endsWithParent, hb.endPattern, hb.terminator, hb.endRegex⟩

/-- The own end of a mode that is open is compiled with the flags of the grammar. -/
theorem Rooted.prepared_ends (hr : Rooted g l c b) {id : Nat} {m : Mode} {around : Option Nat}
    (hm : Stands g l id m around) :
    (l.mode id).endPattern.mapM (prepare g.caseInsensitive) = .ok (l.mode id).endRegex := by
  cases around with
  | some around => exact (hr.bounded hm).endRegex
  | none =>
    obtain ⟨rfl, -⟩ := hr.standsIn hm
    obtain ⟨-, hpattern, hregex⟩ := hr.root_ends
    rw [hpattern, hregex]
    rfl

/-- The terminator of the top mode is put together from own ends, and the first of these with some
property is the first of the open modes that may end with it. -/
theorem Rooted.exists_ends (hr : Rooted g l c b) (hl : EndsPlainly g l) {ids : List Nat}
    (h : Seated g l ids) : ∀ id rest, ids = id :: rest → ∃ sources,
      (l.mode id).terminator = "|".intercalate sources ∧
      (∀ source ∈ sources, ∃ k m around, Stands g l k m around ∧
        (l.mode k).endPattern = some source) ∧
      ∀ {β : Type} (f : String → Option β), sources.findSome? f = (l.endsOf ids).findSome? f := by
  induction h with
  | root =>
    rintro _ _ ⟨⟩
    obtain ⟨hterminator, hpattern, -⟩ := hr.root_ends
    refine ⟨[], hterminator, by simp, fun f => ?_⟩
    simp [endsOf, hpattern]
  | @on id p ids hid h ih =>
    rintro _ _ ⟨⟩
    obtain ⟨sources, hterminator, hsources, hfirst⟩ := ih p ids rfl
    have hne : ∀ source ∈ sources, source ≠ "" := fun source hsource => by
      obtain ⟨k, -, -, -, hk⟩ := hsources source hsource
      exact (hl.ends k source hk).1
    have hown : ∀ {m : Mode} {around : Nat}, Stands g l id m (some around) →
        ∀ source ∈ (l.mode id).endPattern.toList, ∃ k m around, Stands g l k m around ∧
          (l.mode k).endPattern = some source := fun hm source hsource =>
      ⟨id, _, _, hm, Option.mem_toList.mp hsource⟩
    -- a mode that does not end with its parent is asked for its own end only
    have halone : ∀ {m : Mode} {around : Nat}, Stands g l id m (some around) →
        (m.endsWithParent == some true) = false → ∃ sources,
          (l.mode id).terminator = "|".intercalate sources ∧
          (∀ source ∈ sources, ∃ k m around, Stands g l k m around ∧
            (l.mode k).endPattern = some source) ∧
          ∀ {β : Type} (f : String → Option β),
            sources.findSome? f = (l.endsOf (id :: p :: ids)).findSome? f := by
      intro m around hm hwith
      obtain ⟨hends, hterminator⟩ := (hr.bounded hm).terminator_own hwith
      refine ⟨_, hterminator, hown hm, fun f => ?_⟩
      rw [endsOf, hends, if_neg Bool.false_ne_true, List.append_nil]
    cases hid with
    | @inside m _ hm =>
      cases hwith : m.endsWithParent == some true with
      | false => exact halone hm hwith
      | true =>
        obtain ⟨hends, hterminator⟩ :=
          (hr.bounded hm).terminator_with (eq_of_beq hwith) hterminator hne
        refine ⟨_, hterminator, fun source hsource => ?_, fun f => ?_⟩
        · exact (List.mem_append.mp hsource).elim (hown hm source) (hsources source)
        · rw [endsOf, hends, if_pos rfl, List.findSome?_append, List.findSome?_append, hfirst]
    | freely hm hfree => exact halone hm (Shelf.endsWithParent_of_dependsOnParent hfree)
    | itself _ _ =>
      refine ⟨sources, hterminator, hsources, fun f => ?_⟩
      rw [hfirst]
      simp only [endsOf]
      -- the own end comes twice, which is no other than once
      cases (l.mode id).endsWithParent with
      | false => simp
      | true =>
        simp only [if_true, List.findSome?_append]
        cases ((l.mode id).endPattern.toList).findSome? f <;> rfl

end Ends

end Language

/-! ### Going through the open modes -/

namespace Scan

/-- The frame that ends at a place, given what patterns match there: the modes above it end with the
mode around them and their own ends do not match, but its own end does. -/
structure EndsFirst (l : Language ρ) (span? : String → Option Span) (upper : List (Frame ρ))
    (f : Frame ρ) (s : Span) : Prop where
  upper : ∀ u ∈ upper, (l.mode u.mode).endsWithParent ∧
    ∀ source, (l.mode u.mode).endPattern = some source → span? source = none
  own : ∃ source, (l.mode f.mode).endPattern = some source ∧ span? source = some s

section Ending

variable {letters : Letters} (hρ : LeftmostFirst ρ letters) {env : Setting ρ} {foldCase : Bool}
  {found : Found} {before after : List Char} (hcode : env.code = before ++ after)
  (hfound : found.index = byteSize before)

include hρ hcode hfound

/-- Where no guard is asked, the end of a mode is at a match if its own end matches there. -/
theorem endsAt_eq {f : Frame ρ} (hf : f.endOverride = none)
    (hguard : (env.language.mode f.mode).onEnd = none)
    (hre : (env.language.mode f.mode).endPattern.mapM (Language.prepare foldCase) =
      .ok (env.language.mode f.mode).endRegex) :
    endsAt env found f = .ok (((env.language.mode f.mode).endPattern.bind
      (spanAlone? ρ foldCase env.code found.index)).isSome, f) := by
  unfold endsAt
  cases hpattern : (env.language.mode f.mode).endPattern with
  | none =>
    rw [hpattern] at hre
    have hnone : (env.language.mode f.mode).endRegex = none := (Except.ok.inj hre).symm
    simp [hf, hnone]
  | some source =>
    obtain ⟨re, hregex, hcompile⟩ := Language.exists_prepared hre source hpattern
    have hmatches := hρ.matchesAt_eq hcompile before after
    rw [← hcode, ← hfound] at hmatches
    have hspan : spanAlone? ρ foldCase env.code found.index source =
        Engine.spanAt re env.code found.index := by
      unfold spanAlone?
      rw [hcompile]
    simp only [hf, hregex, hguard, hmatches, Option.bind_some, hspan,
      Option.orElse_eq_orElse, Option.orElse_eq_or, Option.none_or]
    cases (Engine.spanAt re env.code found.index).isSome <;> rfl

/-- Going through the open modes finds the first of them whose own end matches. -/
theorem endingFrame_cases (foldCase : Bool) : ∀ frames : List (Frame ρ), Unbound frames →
    (∀ f ∈ frames, (env.language.mode f.mode).onEnd = none ∧
      (env.language.mode f.mode).endPattern.mapM (Language.prepare foldCase) =
        .ok (env.language.mode f.mode).endRegex) →
    (env.language.endsOf (frames.map Frame.mode)).findSome?
        (spanAlone? ρ foldCase env.code found.index) = none ∧
      endingFrame env found frames = .ok (none, frames) ∨
    ∃ upper f lower s, frames = upper ++ f :: lower ∧
      EndsFirst env.language (spanAlone? ρ foldCase env.code found.index) upper f s ∧
      (env.language.endsOf (frames.map Frame.mode)).findSome?
        (spanAlone? ρ foldCase env.code found.index) = some s ∧
      endingFrame env found frames = .ok (some (outermostEnding env.language (f :: lower)), frames)
  | [], _, _ => Or.inl ⟨rfl, rfl⟩
  | f :: fs, hbound, hmodes => by
    obtain ⟨hf, hfs⟩ := List.forall_mem_cons.mp hbound
    obtain ⟨⟨hguard, hre⟩, hmodes⟩ := List.forall_mem_cons.mp hmodes
    have hends := endsAt_eq hρ hcode hfound hf hguard hre
    have hown : (env.language.mode f.mode).endPattern.toList.findSome?
        (spanAlone? ρ foldCase env.code found.index) =
          (env.language.mode f.mode).endPattern.bind
            (spanAlone? ρ foldCase env.code found.index) := by
      cases (env.language.mode f.mode).endPattern with
      | none => rfl
      | some source => exact List.findSome?_singleton
    unfold endingFrame
    rw [hends, List.map_cons, Language.endsOf, List.findSome?_append, hown]
    cases hspan : (env.language.mode f.mode).endPattern.bind
        (spanAlone? ρ foldCase env.code found.index) with
    | some s =>
      obtain ⟨source, hsource, hs⟩ := Option.bind_eq_some_iff.mp hspan
      exact Or.inr ⟨[], f, fs, s, rfl, ⟨by simp, source, hsource, hs⟩, rfl, rfl⟩
    | none =>
      have hnone : ∀ source, (env.language.mode f.mode).endPattern = some source →
          spanAlone? ρ foldCase env.code found.index source = none := fun source hsource => by
        rw [hsource, Option.bind_some] at hspan
        exact hspan
      rw [Option.none_or, Option.isSome_none]
      -- the own end does not match, so the mode around is asked, if the mode ends with it
      cases hwith : (env.language.mode f.mode).endsWithParent with
      | false => exact Or.inl ⟨by simp, by simp [hwith]⟩
      | true =>
        cases fs with
        | nil => exact Or.inl ⟨by simp [Language.endsOf], by simp⟩
        | cons g fs =>
          rcases endingFrame_cases foldCase (g :: fs) hfs hmodes with ⟨hfirst, hrest⟩ |
            ⟨upper, e, lower, s, hframes, hfirst, hs, hrest⟩
          · refine Or.inl ⟨hfirst, ?_⟩
            simp [hwith, hrest]
          · refine Or.inr ⟨f :: upper, e, lower, s, ?_, ⟨?_, hfirst.own⟩, hs, ?_⟩
            · rw [hframes, List.cons_append]
            · exact List.forall_mem_cons.mpr ⟨⟨hwith, hnone⟩, hfirst.upper⟩
            · simp [hwith, hrest]

omit hcode hfound in
/-- The end of the top mode matches what the first of the open modes that may end matches. -/
theorem spanAlone?_terminator {g : Grammar} {l : Language ρ} {c b : Language.Arena ρ}
    (hr : Language.Rooted g l c b) (hl : l.EndsPlainly g) {id : Nat} {ids : List Nat}
    (h : Language.Seated g l (id :: ids)) (before after : List Char) :
    (if (l.mode id).terminator = "" then none else
      spanAlone? ρ g.caseInsensitive (before ++ after) (byteSize before) (l.mode id).terminator) =
      (l.endsOf (id :: ids)).findSome?
        (spanAlone? ρ g.caseInsensitive (before ++ after) (byteSize before)) := by
  obtain ⟨sources, hterminator, hsources, hfirst⟩ := hr.exists_ends hl h id ids rfl
  rw [← hfirst]
  cases sources with
  | nil =>
    have hempty : (l.mode id).terminator = "" := hterminator
    rw [if_pos hempty]
    rfl
  | cons source sources =>
    have hplain : ∀ s ∈ source :: sources, s ≠ "" ∧ Plain false s.toList ∧
        isUnreferring s.toList := fun s hs => by
      obtain ⟨k, -, -, -, hk⟩ := hsources s hs
      exact hl.ends k s hk
    have hne : (l.mode id).terminator ≠ "" := by
      rw [hterminator]
      exact barred_ne_empty (hplain source List.mem_cons_self).1 sources
    have heach : ∀ s ∈ source :: sources, Accepted ρ g.caseInsensitive s := fun s hs => by
      obtain ⟨k, m, around, hm, hk⟩ := hsources s hs
      obtain ⟨re, -, hre⟩ := Language.exists_prepared (hr.prepared_ends hm) s hk
      exact ⟨re, hre⟩
    have hunion := hl.accepted id hne
    rw [if_neg hne, hterminator] at *
    exact spanAlone?_barred hρ
      (Pattern.independent_of_isUnreferring 0 fun s hs => (hplain s hs).2)
      (List.cons_ne_nil _ _) heach hunion before after

/-- **The end that is looked for and the ends of the open modes agree.** In every stack that going
through code leads to, the end of the top mode matches at a place exactly where going through the
open modes finds one that ends there; this is the innermost one along those that end with the mode
around them whose own end matches there, and the match is what that end matches alone. -/
theorem ends_agree {g : Grammar} {name : String} {l : Language ρ}
    (h : Language.compile g name = .ok l) (hl : l.EndsPlainly g) {top : Frame ρ}
    {rest : List (Frame ρ)} (hframes : l.Open (top :: rest)) (henv : env.language = l) :
    ((l.mode top.mode).Takes .ends env.code found.index ↔
      ∃ place frames, endingFrame env found (top :: rest) = .ok (some place, frames)) ∧
    ∀ place frames, endingFrame env found (top :: rest) = .ok (some place, frames) →
      ∃ upper f lower s, top :: rest = upper ++ f :: lower ∧
        EndsFirst l (spanAlone? ρ g.caseInsensitive env.code found.index) upper f s ∧
        place = outermostEnding l (f :: lower) ∧
        ∀ r ∈ (l.mode top.mode).matcher.rules, r.kind = .ends → ∀ position,
          (r.matchAt? ρ g.caseInsensitive env.code found.index position).map Found.lexeme =
            some (String.ofList ((Text.slice? env.code s.start s.stop).getD [])) := by
  subst henv
  obtain ⟨hseated, hunbound⟩ := Language.seated_of_open h hl.followed hl.bound hframes
  obtain ⟨c, b, hr⟩ := Language.exists_rooted h
  have hstands := hseated.stands_of_mem
  -- one pattern is looked for, put together from the ends that the open modes are asked for
  have hspan := spanAlone?_terminator hρ hr hl hseated before after
  rw [← hcode, ← hfound] at hspan
  obtain ⟨m, around, hm⟩ := hstands top.mode List.mem_cons_self
  obtain ⟨cm, hmirror⟩ := hr.mirrors hm
  have hmode := hmirror.mode_eq
  have htakes : (env.language.mode top.mode).Takes .ends env.code found.index ↔
      ((env.language.endsOf ((top :: rest).map Frame.mode)).findSome?
        (spanAlone? ρ g.caseInsensitive env.code found.index)).isSome := by
    rw [List.map_cons, ← hspan, hmode, hmirror.takes_ends]
    by_cases ht : cm.terminator = ""
    · rw [if_pos ht]
      simp [ht]
    · rw [if_neg ht]
      simp [ht]
  have hcases := endingFrame_cases hρ hcode hfound g.caseInsensitive (top :: rest) hunbound
    fun f hf => by
      obtain ⟨m, around, hm⟩ := hstands f.mode (List.mem_map_of_mem hf)
      exact ⟨hl.unguarded f.mode, hr.prepared_ends hm⟩
  rcases hcases with ⟨hnone, hending⟩ | ⟨upper, f, lower, s, heq, hfirst, hsome, hending⟩
  · rw [htakes, hnone, hending]
    simp
  · rw [htakes, hsome, hending]
    refine ⟨by simp, ?_⟩
    rintro place frames ⟨⟩
    refine ⟨upper, f, lower, s, heq, hfirst, rfl, fun r hrule hkind position => ?_⟩
    rw [hmode] at hrule
    have hterminator := hmirror.source_of_ends hrule hkind
    rw [← hmode] at hterminator
    rw [if_neg hterminator.1] at hspan
    rw [List.map_cons] at hsome
    rw [r.lexeme_matchAt?, hterminator.2, hspan, hsome]
    rfl

end Ending

/-! ### Stacks from scratch -/

/-- The state after so many steps from scratch, if there are so many. -/
def stateAfter (env : Setting ρ) : Nat → Option (State ρ)
  | 0 => some (initial env.language [Frame.new 0])
  | n + 1 => (stateAfter env n).bind fun s => (step env s).toOption.join

theorem step_of_stateAfter {env : Setting ρ} {n : Nat} {s s' : State ρ}
    (h : stateAfter env n = some s) (h' : stateAfter env (n + 1) = some s') :
    step env s = .ok (some s') := by
  rw [stateAfter, h, Option.bind_some] at h'
  cases hs : step env s with
  | error p => rw [hs] at h'; cases h'
  | ok next =>
    rw [hs] at h'
    exact congrArg Except.ok h'

theorem leads_stateAfter {env : Setting ρ} : ∀ {n : Nat} {s : State ρ}, stateAfter env n = some s →
    Leads env (initial env.language [Frame.new 0]) s
  | 0, _, h => by
    cases h
    exact .refl
  | n + 1, s, h => by
    obtain ⟨t, ht, -⟩ := Option.bind_eq_some_iff.mp h
    exact (leads_stateAfter ht).tail (step_of_stateAfter ht h)

theorem open_stateAfter {env : Setting ρ} {n : Nat} {s : State ρ} (h : stateAfter env n = some s) :
    env.language.Open s.frames :=
  .later rfl .scratch (leads_stateAfter h)

/-- The setting in which code is gone through without any other language. -/
def aloneWith (l : Language ρ) (code : String) : Setting ρ where
  name := "t"
  language := l
  code := code.toList
  ignoreIllegals := false
  safeMode := true
  nested := ⟨fun _ => none, fun _ _ _ => .error .unfinished, fun _ _ => .error .unfinished⟩

/-- A mode that contains itself and another one, which ends by itself or with it. -/
def inner : Grammar where
  root := { contains := some [.mode 0] }
  shelf := { modes := #[
    { beginPattern := some "<", endPattern := some ">", contains := some [.self, .mode 1] },
    { beginPattern := some "s", endPattern := some ";", endsWithParent := some true }] }

/-- A language whose ends can be told apart by what its modes say. -/
def endsApart (cm : CompiledMode Tried) : Bool :=
  !cm.endSameAsBegin && cm.onEnd.isNone && cm.endPattern.all (fun source =>
    decide (source ≠ "" ∧ Plain false source.toList) && isUnreferring source.toList) &&
    (cm.terminator == "" || (Parsed.read (flagged cm.terminator false)).isOk)

/-- Behind `<<s` the inner mode ends with the mode around it, at the end of that one. -/
theorem ends_agree_inner : ∃ (l : Language Tried) (top : Frame Tried) (rest : List (Frame Tried)),
    Language.compile inner "t" = .ok l ∧ l.Open (top :: rest) ∧
      (top :: rest).map Frame.mode = [2, 1, 1, 0] ∧
      (l.mode top.mode).Takes .ends "<<s>".toList 3 := by
  -- what is open after three steps, what of it ends, and what the modes say
  have hc : (Language.compile inner "t" : Except Problem (Language Tried)).toOption.bind (fun l =>
      (stateAfter (aloneWith l "<<s>") 3).bind fun s =>
        (endingFrame (aloneWith l "<<s>") ⟨3, [some ">"], .ends, 0⟩ s.frames).toOption.map fun e =>
          (e.1, s.frames.map Frame.mode, l.modes.toList.all endsApart)) =
      some (some 2, [2, 1, 1, 0], true) := by decide +kernel
  cases hl : (Language.compile inner "t" : Except Problem (Language Tried)) with
  | error p => rw [hl] at hc; cases hc
  | ok l =>
    rw [hl] at hc
    change ((stateAfter (aloneWith l "<<s>") 3).bind _) = _ at hc
    obtain ⟨s, hs, hc⟩ := Option.bind_eq_some_iff.mp hc
    obtain ⟨⟨place, frames⟩, hending, hc⟩ := Option.map_eq_some_iff.mp hc
    obtain ⟨hplace, hmodes, hall⟩ : place = some 2 ∧ s.frames.map Frame.mode = [2, 1, 1, 0] ∧
        l.modes.toList.all endsApart = true := by simpa using hc
    have hmode : ∀ id, endsApart (l.mode id) := fun id =>
      List.all_eq_true.mp hall _ (Array.mem_toList_iff.mpr (l.mode_mem id))
    simp only [endsApart, Bool.and_eq_true, Bool.or_eq_true] at hmode
    have hplain : l.EndsPlainly inner := by
      refine ⟨fun id => ?_, fun id => ?_, fun id source hsource => ?_, fun id hne => ?_, ?_⟩
      · simpa using (hmode id).1.1.1
      · simpa using (hmode id).1.1.2
      · have hends := (hmode id).1.2
        rw [hsource] at hends
        simpa [and_assoc] using hends
      · have hread := (hmode id).2.resolve_left (by simpa using hne)
        cases hp : Parsed.read (flagged (l.mode id).terminator false) with
        | error fault => rw [hp] at hread; cases hread
        | ok p => exact ⟨⟨p⟩, congrArg (Except.map Tried.mk) hp⟩
      · refine Language.freelyFollowed_of_starts rfl fun m hm => ?_
        simp only [inner, List.mem_toArray, List.mem_cons, List.not_mem_nil, or_false] at hm
        rcases hm with rfl | rfl <;> rfl
    obtain ⟨top, rest, hframes, htop, -⟩ := List.map_eq_cons_iff.mp hmodes
    have hopen : l.Open (top :: rest) := hframes ▸ open_stateAfter hs
    have hfound : endingFrame (aloneWith l "<<s>") ⟨3, [some ">"], .ends, 0⟩ (top :: rest) =
        .ok (some 2, frames) := by
      rw [← hframes, ← hplace]
      cases he : endingFrame (aloneWith l "<<s>") ⟨3, [some ">"], .ends, 0⟩ s.frames with
      | error p => rw [he] at hending; cases hending
      | ok e => rw [he] at hending; exact congrArg Except.ok (Option.some.inj hending)
    have hcode : (aloneWith l "<<s>").code = "<<s".toList ++ ">".toList := rfl
    have hindex : (⟨3, [some ">"], .ends, 0⟩ : Found).index = byteSize "<<s".toList := by decide
    have hagree := ends_agree Tried.leftmostFirst hcode hindex hl hplain hopen rfl
    exact ⟨l, top, rest, rfl, hopen, hframes ▸ hmodes, hagree.1.mpr ⟨2, frames, hfound⟩⟩

/-- A mode that contains itself and is followed by one that ends by itself or with its parent. -/
def followed : Grammar where
  root := { contains := some [.mode 0] }
  shelf := { modes := #[
    { beginPattern := some "<", endPattern := some ">", contains := some [.self],
      starts := some 1 },
    { endPattern := some ";", endsWithParent := some true }] }

/-- Behind `<<>x` what follows the inner mode is open in the outer one. Its end has been put together
for a place in the root, so that the end of the outer mode is not looked for, although going through
the open modes finds that it ends there. -/
theorem ends_disagree : ∃ (l : Language Tried) (top : Frame Tried) (rest : List (Frame Tried)),
    Language.compile followed "t" = .ok l ∧ l.Open (top :: rest) ∧
      (top :: rest).map Frame.mode = [2, 1, 0] ∧
      ¬ (l.mode top.mode).Takes .ends "<<>x>".toList 4 ∧
      ∃ frames, endingFrame (aloneWith l "<<>x>") ⟨4, [some ">"], .ends, 0⟩ (top :: rest) =
        .ok (some 1, frames) := by
  have hc : (Language.compile followed "t" : Except Problem (Language Tried)).toOption.bind (fun l =>
      (stateAfter (aloneWith l "<<>x>") 3).bind fun s =>
        (endingFrame (aloneWith l "<<>x>") ⟨4, [some ">"], .ends, 0⟩ s.frames).toOption.map fun e =>
          (e.1, s.frames.map Frame.mode, (l.mode 2).matcher.sources, (l.mode 2).matcher.foldCase)) =
      some (some 1, [2, 1, 0], [(.ends, ";")], false) := by decide +kernel
  cases hl : (Language.compile followed "t" : Except Problem (Language Tried)) with
  | error p => rw [hl] at hc; cases hc
  | ok l =>
    rw [hl] at hc
    change ((stateAfter (aloneWith l "<<>x>") 3).bind _) = _ at hc
    obtain ⟨s, hs, hc⟩ := Option.bind_eq_some_iff.mp hc
    obtain ⟨⟨place, frames⟩, hending, hc⟩ := Option.map_eq_some_iff.mp hc
    obtain ⟨hplace, hmodes, hsources, hfold⟩ : place = some 1 ∧
        s.frames.map Frame.mode = [2, 1, 0] ∧ (l.mode 2).matcher.sources = [(.ends, ";")] ∧
          (l.mode 2).matcher.foldCase = false := by simpa using hc
    obtain ⟨top, rest, hframes, htop, -⟩ := List.map_eq_cons_iff.mp hmodes
    refine ⟨l, top, rest, rfl, hframes ▸ open_stateAfter hs, hframes ▸ hmodes, fun htakes => ?_,
      frames, ?_⟩
    · rw [htop, CompiledMode.takes_iff, hsources, hfold] at htakes
      obtain ⟨source, hsource, hmatch⟩ := htakes
      obtain ⟨-, rfl⟩ := Prod.mk.inj (List.mem_singleton.mp hsource)
      exact absurd hmatch (by decide +kernel)
    · rw [← hframes, ← hplace]
      cases he : endingFrame (aloneWith l "<<>x>") ⟨4, [some ">"], .ends, 0⟩ s.frames with
      | error p => rw [he] at hending; cases hending
      | ok e => rw [he] at hending; exact congrArg Except.ok (Option.some.inj hending)

end Scan

end CodeMarkup
