import CodeMarkup.Proofs.Highlight.Recognized
import CodeMarkup.Proofs.Highlight.Reported

/-! # The mode that text is content of

What is reported is content of the mode on top then, which is not the one in which it was gone over
where a skipped mode has begun or ended in between: these have nothing reported. In a language in which
what is skipped keeps to itself (`Language.SkipsApart`) text is content of the mode in which it was gone
over, unless the code ends within a skipped one (`Scan.content_of_mode`). Where a mode that is not
skipped begins within one that is, the text before both is content of the skipped one
(`Scan.content_of_skipped`). -/

namespace CodeMarkup

open Markup (Event)
open Text (byteSize)

variable {ρ : Type} [Engine ρ]

/-! ### Modes that are skipped -/

/-- A language in which what is skipped keeps to itself: skipped modes contain and are followed by
skipped ones only, and one that stands in a mode that is not skipped ends by itself and alone. -/
structure Language.SkipsApart (l : Language ρ) : Prop where
  children : ∀ {id child : Nat}, (l.mode id).skip = true → child ∈ (l.mode id).children →
    (l.mode child).skip = true
  starts : ∀ {id next : Nat}, (l.mode id).skip = true → (l.mode id).starts = some next →
    (l.mode next).skip = true
  alone : ∀ {outer id : Nat}, (l.mode outer).skip = false → l.Holds outer id →
    (l.mode id).skip = true → (l.mode id).endsParent = false ∧ (l.mode id).endsWithParent = false

namespace Scan

variable {env : Setting ρ}

/-- Modes that are open over others, all of them skipped; the lowest stands in the mode below it. -/
structure SkippedOver (l : Language ρ) (top : Nat) (ids : List Nat) : Prop where
  skip : ∀ id ∈ ids, (l.mode id).skip = true
  holds : ∀ low ∈ ids.getLast?, l.Holds top low

theorem le_outermostEnding (l : Language ρ) {f : Frame ρ} (hf : (l.mode f.mode).endsParent = false)
    (lower : List (Frame ρ)) : ∀ upper : List (Frame ρ),
      lower.length ≤ outermostEnding l (upper ++ f :: lower)
  | [] => by
    rw [List.nil_append, outermostEnding, hf, Bool.and_false, if_neg Bool.false_ne_true]
  | u :: upper => by
    rw [List.cons_append, outermostEnding]
    split
    · exact le_outermostEnding l hf lower upper
    · rw [List.length_append, List.length_cons]
      omega

/-- The modes under one that ends by itself and alone do not end with those over it. -/
theorem le_of_endingFrame {found : Found} {f : Frame ρ}
    (hparent : (env.language.mode f.mode).endsParent = false)
    (hwith : (env.language.mode f.mode).endsWithParent = false) {lower : List (Frame ρ)} :
    ∀ {upper frames : List (Frame ρ)} {place : Nat},
      endingFrame env found (upper ++ f :: lower) = .ok (some place, frames) → lower.length ≤ place
  | [], frames, place, h => by
    rw [List.nil_append] at h
    unfold endingFrame at h
    split at h
    · cases h
    · next g hends =>
      cases h
      rw [← mode_endsAt hends] at hparent
      exact le_outermostEnding env.language hparent lower []
    · next g hends =>
      rw [mode_endsAt hends, hwith, Bool.false_and, if_neg Bool.false_ne_true] at h
      cases h
  | u :: upper, frames, place, h => by
    rw [List.cons_append] at h
    unfold endingFrame at h
    split at h
    · cases h
    · cases h
      exact le_outermostEnding env.language hparent lower (_ :: upper)
    · split at h
      · split at h
        · cases h
        · next hrest =>
          cases h
          exact le_of_endingFrame hparent hwith hrest
      · cases h

/-- Of skipped modes over one that is not some end, and the last of them may be followed by one. -/
theorem exists_skippedOver {l : Language ρ} (hw : l.SkipsApart) {top n : Nat} {ids rest : List Nat}
    (hover : SkippedOver l top ids) (hn : n ≤ ids.length) :
    ∃ ids', (following l ((ids ++ top :: rest).take n).getLast?).toList ++
      (ids ++ top :: rest).drop n = ids' ++ top :: rest ∧ SkippedOver l top ids' := by
  rw [List.take_append_of_le_length hn, List.drop_append_of_le_length hn, ← List.append_assoc]
  refine ⟨_, rfl, List.forall_mem_append.mpr ⟨fun id hid => ?_, fun id hid => ?_⟩, fun low hlow => ?_⟩
  · obtain ⟨ended, hended, hstarts⟩ := Option.bind_eq_some_iff.mp (Option.mem_toList.mp hid)
    exact hw.starts (hover.skip ended (List.mem_of_mem_take (List.mem_of_getLast? hended))) hstarts
  · exact hover.skip id (List.mem_of_mem_drop hid)
  · rcases Nat.lt_or_ge n ids.length with hlt | hge
    · rw [List.getLast?_append, List.getLast?_drop, if_neg (by omega)] at hlow
      refine hover.holds low ?_
      cases hlast : ids.getLast? with
      | none =>
        rw [List.getLast?_eq_none_iff.mp hlast] at hlt
        cases hlt
      | some last =>
        rw [hlast] at hlow
        exact hlow
    · -- all of them end, so what follows stands where the lowest did
      rw [List.drop_eq_nil_of_le hge, List.append_nil, List.take_of_length_le hge] at hlow
      cases hfollowing : following l ids.getLast? with
      | none =>
        rw [hfollowing] at hlow
        cases hlow
      | some next =>
        rw [hfollowing] at hlow
        obtain rfl := Option.some.inj hlow
        obtain ⟨ended, hended, hstarts⟩ := Option.bind_eq_some_iff.mp hfollowing
        exact (hover.holds ended hended).next hstarts

section SkipsApart

variable (hl : env.language.Linking) (hw : env.language.SkipsApart) {top : Nat} {rest : List Nat}
  (htop : (env.language.mode top).skip = false)

include hl hw htop

/-- **Where no content is reported, only skipped modes are opened and closed** over one that is not. -/
theorem skippedOver_step {s s' : State ρ} (h : Quiet env s s') {ids : List Nat}
    (hmodes : s.course.modes = ids ++ top :: rest) (hover : SkippedOver env.language top ids) :
    ∃ ids', s'.course.modes = ids' ++ top :: rest ∧ SkippedOver env.language top ids' := by
  obtain ⟨found, firstRule, hfind, -, hshifts⟩ := quiet_step h
  generalize s'.course.modes = modes at hshifts ⊢
  cases hshifts with
  | none => exact ⟨ids, hmodes, hover⟩
  | @begins id hk hskip =>
    refine ⟨id :: ids, congrArg (id :: ·) hmodes, List.forall_mem_cons.mpr ⟨hskip, hover.skip⟩, ?_⟩
    cases ids with
    | nil =>
      have hhead : s.course.modes.head? = some top := by rw [hmodes]; rfl
      intro low hlow
      obtain rfl := Option.some.inj hlow
      exact Language.holds_child (mem_children_of_find hl hhead hfind hk)
    | cons k ids =>
      rw [List.getLast?_cons_cons]
      exact hover.holds
  | @ends place frames hskip hending =>
    change (topMode env s).skip = true at hskip
    change ∃ ids', (following env.language (s.course.modes.take (s.course.modes.length -
      max place 1)).getLast?).toList ++ s.course.modes.drop (s.course.modes.length - max place 1) =
        ids' ++ top :: rest ∧ _
    -- a skipped mode is on top, so there is a lowest one, and those under it stay open
    rcases List.eq_nil_or_concat' ids with rfl | ⟨upper, low, rfl⟩
    · rw [topMode_of_head? (by rw [hmodes]; rfl : s.course.modes.head? = some top), htop] at hskip
      cases hskip
    · have hlow := hover.holds low (by simp)
      obtain ⟨hparent, hwith⟩ := hw.alone htop hlow (hover.skip low (by simp))
      have hplace : rest.length + 1 ≤ place := by
        obtain ⟨above, below, hframes, habove, hbelow⟩ := List.map_eq_append_iff.mp hmodes
        obtain ⟨above, lows, rfl, -, hlows⟩ := List.map_eq_append_iff.mp habove
        obtain ⟨f, none, rfl, rfl, hnil⟩ := List.map_eq_cons_iff.mp hlows
        obtain rfl := List.map_eq_nil_iff.mp hnil
        have hending' : endingFrame env found (above ++ f :: below) = .ok (some place, frames) := by
          rw [← hending]
          change _ = endingFrame env found s.frames
          rw [hframes, List.append_assoc]
          rfl
        have hle := le_of_endingFrame hparent hwith hending'
        have hlength := congrArg List.length hbelow
        simp only [List.length_map, List.length_cons] at hlength
        omega
      have hn : s.course.modes.length - max place 1 ≤ (upper ++ [low]).length := by
        rw [hmodes, List.length_append, List.length_cons]
        omega
      rw [hmodes] at hn ⊢
      exact exists_skippedOver hw hover hn

/-- Through steps that have no content reported a mode that is not skipped stays under skipped ones
only. -/
theorem skippedOver_of_quiet {s t : State ρ} (h : Relation.ReflTransGen (Quiet env) s t)
    (hmodes : s.course.modes = top :: rest) :
    ∃ ids, t.course.modes = ids ++ top :: rest ∧ SkippedOver env.language top ids := by
  induction h with
  | refl => exact ⟨[], hmodes, ⟨nofun, nofun⟩⟩
  | tail _ hquiet ih =>
    obtain ⟨ids, hover, hskipped⟩ := ih
    exact skippedOver_step hl hw htop hquiet hover hskipped

omit htop in
/-- Where content is reported while skipped modes are open over one that is not, the code has ended. -/
theorem eq_nil_of_reading {s u : State ρ} (hu : reading? env s = some u) {ids : List Nat}
    (hmodes : s.course.modes = ids ++ top :: rest) (hover : SkippedOver env.language top ids) :
    ids = [] ∨ step env s = .ok none ∧ (topMode env s).skip = true := by
  cases ids with
  | nil => exact .inl rfl
  | cons k ids =>
    have hhead : s.course.modes.head? = some k := by rw [hmodes]; rfl
    have hskip : (topMode env s).skip = true := by
      rw [topMode_of_head? hhead]
      exact hover.skip k List.mem_cons_self
    refine .inr ⟨?_, hskip⟩
    unfold reading? at hu
    split at hu
    · cases hu
    · next hfind => exact step_eq_none_iff.mpr hfind
    · next found firstRule hfind =>
      exfalso
      rcases not_skip_of_readingAt? hu with ⟨id, hk, hid⟩ | htop'
      · have hchild := hw.children (hover.skip k List.mem_cons_self)
          (mem_children_of_find hl hhead hfind hk)
        rw [hid] at hchild
        cases hchild
      · change (topMode env s).skip = false at htop'
        rw [hskip] at htop'
        cases htop'

end SkipsApart

/-- **Text is content of the mode in which it is gone over**, in a language in which what is skipped
keeps to itself. In a run that comes to its end the text that is kept while a mode is on top that is not
skipped, with what is gone over from there on, comes first in the content that is reported next, and that
is the content of this very mode; only code that ends within a skipped mode is content of that one. -/
theorem content_of_mode {g : Grammar} {name : String}
    (hcompile : Language.compile g name = .ok env.language) (hw : env.language.SkipsApart)
    {s last : State ρ} {steps : Nat} (hs : s.frames ≠ []) (hskip : (topMode env s).skip = false)
    (hrun : run env steps s = .ok last) :
    ∃ t u v more, Relation.ReflTransGen (Quiet env) s t ∧ reading? env t = some u ∧
      u.buffer = s.buffer ++ stretch env s ++ more ∧
      readContent env u = .ok v ∧ v.events <:+ last.events ∧
      (topMode env u = topMode env s ∨ step env t = .ok none ∧ (topMode env t).skip = true) := by
  obtain ⟨f, fs, hframes⟩ := List.exists_cons_of_ne_nil hs
  have hmodes : s.course.modes = f.mode :: fs.map Frame.mode := by simp [State.course, hframes]
  have hmode : topMode env s = env.language.mode f.mode := topMode_of_head? (by rw [hmodes]; rfl)
  have hpos : 0 < s.course.modes.length := by
    rw [hmodes]
    exact Nat.succ_pos _
  rw [hmode] at hskip
  have hl := Language.linking_of_compile hcompile
  obtain ⟨t, u, v, hquiet, hu, hv, hsuffix⟩ := exists_reading hpos hrun
  obtain ⟨ids, hover, hskipped⟩ := skippedOver_of_quiet hl hw hskip hquiet hmodes
  obtain ⟨hsame, more, hbuffer⟩ := buffer_reading hu
  obtain ⟨more', hkept⟩ : ∃ more', u.buffer = s.buffer ++ stretch env s ++ more' := by
    rcases hquiet.cases_head with rfl | ⟨s', hfirst, hrest⟩
    · exact ⟨more, hbuffer⟩
    · obtain ⟨-, -, -, ⟨more₁, hmore₁⟩, -⟩ := quiet_step hfirst
      obtain ⟨more₂, hmore₂⟩ := grows_of_quiet hrest
      exact ⟨more₁ ++ more₂ ++ (stretch env t ++ more), by
        rw [hbuffer, hmore₂, hmore₁]
        simp only [String.append_assoc]⟩
  refine ⟨t, u, v, more', hquiet, hu, hkept, hv, hsuffix, ?_⟩
  rcases eq_nil_of_reading hl hw hu hover hskipped with rfl | hended
  · exact .inl (topMode_congr (hsame.trans (hover.trans hmodes.symm)))
  · exact .inr hended

/-! ### A word before a skipped mode -/

/-- A language with a word, in which brackets are skipped; these may be in them. -/
def bracketed (inside : List Child) : Grammar where
  root := {
    keywords := some { pattern := some "foo", categories := [("keyword", ["foo"])] }
    contains := some [.mode 0] }
  shelf := { modes := #[
    { beginPattern := some "\\(", endPattern := some "\\)", skip := some true,
      contains := some inside },
    { className := some "n", matchPattern := some "x" }] }

/-- Whether a mode is not skipped, or all that it contains and what follows it is, and it ends by itself
and alone. -/
def skipsApart (l : Language ρ) (cm : CompiledMode ρ) : Bool :=
  !cm.skip || cm.children.all (fun id => (l.mode id).skip) &&
    cm.starts.all (fun id => (l.mode id).skip) && !cm.endsParent && !cm.endsWithParent

theorem skipsApart_of_all {l : Language ρ} (h : l.modes.toList.all (skipsApart l)) :
    l.SkipsApart := by
  have hmode : ∀ id, (l.mode id).skip = true →
      (((∀ c ∈ (l.mode id).children, (l.mode c).skip = true) ∧
        ∀ n ∈ (l.mode id).starts, (l.mode n).skip = true) ∧ (l.mode id).endsParent = false) ∧
        (l.mode id).endsWithParent = false := fun id hskip => by
    have hall := List.all_eq_true.mp h _ (Array.mem_toList_iff.mpr (l.mode_mem id))
    simpa [skipsApart, hskip, Option.all_eq_true] using hall
  exact {
    children := fun hskip => (hmode _ hskip).1.1.1 _
    starts := fun hskip hnext => (hmode _ hskip).1.1.2 _ hnext
    alone := fun _ _ hskip => ⟨(hmode _ hskip).1.2, (hmode _ hskip).2⟩ }

/-- Before brackets with text in them the word is one. -/
theorem content_of_mode_bracketed : ∃ (l : Language Regex.Tried) (last : State Regex.Tried),
    let env := aloneWith l "foo(x)"
    let s := initial l [Frame.new 0]
    Language.compile (bracketed []) "t" = .ok l ∧ l.SkipsApart ∧ s.frames ≠ [] ∧
      (topMode env s).skip = false ∧ stretch env s = "foo" ∧ run env 3 s = .ok last ∧
      last.relevance = 1 ∧
      ∃ t u v more, Relation.ReflTransGen (Quiet env) s t ∧ reading? env t = some u ∧
        u.buffer = s.buffer ++ stretch env s ++ more ∧
        readContent env u = .ok v ∧ v.events <:+ last.events ∧
        (topMode env u = topMode env s ∨ step env t = .ok none ∧ (topMode env t).skip = true) := by
  obtain ⟨l, hl, h⟩ : ∃ l : Language Regex.Tried, Language.compile (bracketed []) "t" = .ok l ∧
      (l.modes.toList.all (skipsApart l) &&
        !(topMode (aloneWith l "foo(x)") (initial l [Frame.new 0])).skip &&
        stretch (aloneWith l "foo(x)") (initial l [Frame.new 0]) == "foo" &&
        (run (aloneWith l "foo(x)") 3 (initial l [Frame.new 0])).toOption.any
          (·.relevance == 1)) = true := exists_of_any (by decide +kernel)
  simp only [Bool.and_eq_true, Bool.not_eq_true', beq_iff_eq] at h
  obtain ⟨⟨⟨hapart, hskip⟩, hstretch⟩, hrun⟩ := h
  obtain ⟨last, hrun, hrelevance⟩ := exists_of_any hrun
  exact ⟨l, last, hl, skipsApart_of_all hapart, nofun, hskip, hstretch, hrun, beq_iff_eq.mp hrelevance,
    content_of_mode hl (skipsApart_of_all hapart) nofun hskip hrun⟩

/-- Before brackets with a mode in them that is not skipped the word is none: it is content of the
brackets, which have no words. -/
theorem content_of_skipped : ∃ (l : Language Regex.Tried) (t u v : State Regex.Tried),
    let env := aloneWith l "foo(x)"
    let s := initial l [Frame.new 0]
    Language.compile (bracketed [.mode 1]) "t" = .ok l ∧ (topMode env s).skip = false ∧
      ((topMode env s).keywords.bind (·.find? l.caseInsensitive "foo")).isSome ∧
      stretch env s = "foo" ∧ Relation.ReflTransGen (Quiet env) s t ∧ reading? env t = some u ∧
      u.buffer = "foo(" ∧ (topMode env u).skip = true ∧ readContent env u = .ok v ∧
      v.events.filterMap Event.keyword? = [] ∧ v.relevance = 0 := by
  obtain ⟨l, hl, h⟩ : ∃ l : Language Regex.Tried, Language.compile (bracketed [.mode 1]) "t" = .ok l ∧
      (!(topMode (aloneWith l "foo(x)") (initial l [Frame.new 0])).skip &&
        ((topMode (aloneWith l "foo(x)") (initial l [Frame.new 0])).keywords.bind
          (·.find? l.caseInsensitive "foo")).isSome &&
        stretch (aloneWith l "foo(x)") (initial l [Frame.new 0]) == "foo" &&
        (reading? (aloneWith l "foo(x)") (initial l [Frame.new 0])).isNone &&
        (stateAfter (aloneWith l "foo(x)") 1).any fun t => (reading? (aloneWith l "foo(x)") t).any
          fun u => u.buffer == "foo(" && (topMode (aloneWith l "foo(x)") u).skip &&
            (readContent (aloneWith l "foo(x)") u).toOption.any fun v =>
              (v.events.filterMap Event.keyword?).isEmpty && v.relevance == 0) = true :=
    exists_of_any (by decide +kernel)
  simp only [Bool.and_eq_true, Bool.not_eq_true', beq_iff_eq,
    Option.isNone_iff_eq_none] at h
  obtain ⟨⟨⟨⟨hskip, hword⟩, hstretch⟩, hnone⟩, h⟩ := h
  obtain ⟨t, ht, h⟩ := (Option.any_eq_true ..).mp h
  obtain ⟨u, hu, h⟩ := (Option.any_eq_true ..).mp h
  simp only [Bool.and_eq_true, beq_iff_eq] at h
  obtain ⟨⟨hbuffer, hskipped⟩, h⟩ := h
  obtain ⟨v, hv, h⟩ := exists_of_any h
  simp only [Bool.and_eq_true, beq_iff_eq] at h
  obtain ⟨hkeywords, hrelevance⟩ := h
  exact ⟨l, t, u, v, hl, hskip, hword, hstretch, .single ⟨hnone, step_of_stateAfter rfl ht⟩, hu,
    hbuffer, hskipped, hv, List.isEmpty_iff.mp hkeywords, hrelevance⟩

end Scan

end CodeMarkup
