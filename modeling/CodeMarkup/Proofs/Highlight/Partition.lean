import CodeMarkup.Proofs.Highlight.Lossless
import CodeMarkup.Proofs.Language.Registered
import CodeMarkup.Proofs.Language.Spanning

/-! # Highlighting keeps the code

Going through code in a named language and guessing its language both end in markup whose text is
the code, also when the code is left as it is. Embedded code is gone through in the same way, so the
proof is by induction on how deep code may be embedded. -/

namespace CodeMarkup

open Markup (Event)

variable {ρ : Type} [Engine ρ]

/-- Every language of the registry loses no text. -/
def Registry.Lossless (r : Registry ρ) : Prop := ∀ e ∈ r.languages.entries, e.2.Lossless

/-- The events of an outcome are those of some text, which is then finished. -/
def Outcome.Reports (o : Outcome ρ) (code : String) : Prop :=
  ∃ es, o.events = es ++ [.finish] ∧ Event.charsOf es = code

/-! ### Outcomes -/

namespace Outcome

omit [Engine ρ] in
theorem holdsPlain_reports (code : String) : HoldsPlain (ρ := ρ) code (·.Reports code) :=
  fun _ _ _ => ⟨[.text code], rfl, by simp [Event.charsOf, Event.chars]⟩

omit [Engine ρ] in
theorem Reports.charsOf {o : Outcome ρ} {code : String} (h : o.Reports code) :
    Event.charsOf o.events = code := by
  obtain ⟨es, he, hc⟩ := h
  rw [he, Event.charsOf_append, hc]
  simp [Event.charsOf, Event.chars]

omit [Engine ρ] in
theorem Reports.content {o : Outcome ρ} {code : String} (h : o.Reports code)
    (classPrefix : String) : (o.build Markup.Tree classPrefix).content = code := by
  obtain ⟨es, he, hc⟩ := h
  rw [build, he, Markup.Tree.content_ofEvents, hc]

end Outcome

theorem Scan.reports_outcome {env : Setting ρ} (he : Sound env) {frames : List (Frame ρ)}
    {o : Outcome ρ} (h : outcome env frames = .ok o) : o.Reports (String.ofList env.code) := by
  have hc := charsOf_outcome he h
  obtain ⟨s, -, rfl⟩ := outcome_eq_ok h
  refine ⟨s.events.reverse ++ [.closingAll], by simp [finished], ?_⟩
  rw [← hc, finished, Event.charsOf_append, Event.charsOf_append]
  simp [Event.charsOf, Event.chars]

/-! ### Languages -/

theorem Dictionary.mem_of_findIn {α : Type} {key : String} {value : α} :
    ∀ {es : List (String × α)}, findIn key es = some value → (key, value) ∈ es
  | (k, v) :: es, h => by
    unfold findIn at h
    split at h
    · next hk =>
      cases h
      rw [hk]
      exact List.mem_cons_self
    · exact List.mem_cons_of_mem _ (mem_of_findIn h)

theorem Registry.Lossless.resolve {r : Registry ρ} (hr : r.Lossless) {name key : String}
    {l : Language ρ} (h : r.resolve name = some (key, l)) : l.Lossless :=
  hr _ (Dictionary.mem_of_findIn (find?_of_resolve h))

/-! ### Going through code -/

/-- Embedded code is reported as it is if code that is embedded less deep is. -/
theorem lossless_nestedWithin {r : Registry ρ} {o : Options} {depth : Nat}
    (h : ∀ name code ignoreIllegals continuation out,
      highlightWithin r o depth name code ignoreIllegals continuation = .ok out →
        out.Reports code) : (nestedWithin r o depth).Lossless := by
  refine ⟨fun key code stack inner ho => (h key code true stack inner ho).charsOf, ?_⟩
  intro code subset inner ho
  obtain ⟨d, hd, rfl⟩ := of_map_ok ((detect_nestedWithin r o depth code subset).symm.trans ho)
  exact (forall_detectWith (Outcome.holdsPlain_reports code)
    (fun name out ho => h name code false none out ho) hd).1.charsOf

/-- Code that is embedded at most so deep is kept. -/
theorem reports_highlightWithin {r : Registry ρ} (hr : r.Lossless) (o : Options) :
    ∀ (depth : Nat) (name code : String) (ignoreIllegals : Bool)
      (continuation : Option (ModeStack ρ)) (out : Outcome ρ),
      highlightWithin r o depth name code ignoreIllegals continuation = .ok out →
        out.Reports code
  | 0, name, code, ignoreIllegals, continuation, out, h => by cases h
  | depth + 1, name, code, ignoreIllegals, continuation, out, h => by
    have hnested := lossless_nestedWithin (reports_highlightWithin hr o depth)
    rw [highlightWithin_succ] at h
    split at h
    · cases h
    · next key language hl =>
      refine (Outcome.holdsPlain_reports code).recover (fun out hout => ?_) h
      rw [← String.ofList_toList (s := code)]
      exact Scan.reports_outcome ⟨hr.resolve hl, hnested⟩ hout

theorem reports_highlight {r : Registry ρ} (hr : r.Lossless) {o : Options} {name code : String}
    {ignoreIllegals : Bool} {continuation : Option (ModeStack ρ)} {out : Outcome ρ}
    (h : highlight r o name code ignoreIllegals continuation = .ok out) : out.Reports code :=
  reports_highlightWithin hr o (nestingBound r code) name code ignoreIllegals continuation out h

/-- **Highlighting loses no text.** The markup of code in a named language has the code as its text,
and so have the best and the next best markup when the language is guessed. -/
theorem content_highlight_detect (r : Registry ρ) (hr : r.Lossless) (o : Options) (code : String) :
    (∀ name ignoreIllegals continuation out,
      highlight r o name code ignoreIllegals continuation = .ok out →
        (out.build Markup.Tree o.classPrefix).content = code) ∧
    ∀ subset d, detect r o code subset = .ok d →
      (d.best.build Markup.Tree o.classPrefix).content = code ∧
        ∀ p, d.runnerUp = some p → (p.build Markup.Tree o.classPrefix).content = code := by
  refine ⟨fun name ignoreIllegals continuation out h => (reports_highlight hr h).content _,
    fun subset d h => ?_⟩
  obtain ⟨hbest, hnext⟩ := forall_detectWith (Outcome.holdsPlain_reports code)
    (fun name out ho => reports_highlight hr ho) h
  exact ⟨hbest.content _, fun p hp => (hnext p hp).content _⟩

/-! ### Strings in quotes -/

instance (m : CompiledMode ρ) : Decidable m.TakesOnce :=
  decidable_of_iff ((m.returnBegin = true → m.skip = false ∧ m.excludeBegin = false) ∧
      (m.returnEnd = true → m.skip = false ∧ m.excludeEnd = false))
    ⟨fun ⟨hb, he⟩ => ⟨hb, he⟩, fun ⟨hb, he⟩ => ⟨hb, he⟩⟩

/-- A language of plain patterns loses no text once its matches are looked over. -/
theorem Language.lossless_of_accepted {l : Language (Checked Regex.Tried)}
    (h : ∀ m ∈ l.modes, (∀ r ∈ m.matcher.rules, r.Accepted Regex.Tried m.matcher.foldCase) ∧
      m.TakesOnce) : l.Lossless where
  lands m hm := ⟨Matcher.lands_of_accepted (h m hm).1, fun _ _ =>
    (Checked.lawful Regex.Tried).follow⟩
  takesOnce m hm := (h m hm).2

/-- Strings in quotes are highlighted, and no text is lost. -/
theorem content_highlight_detect_quoted :
    ∃ (r : Registry (Checked Regex.Tried)) (out : Outcome (Checked Regex.Tried)), r.Lossless ∧
      highlight r {} "Quoted" "say \"h\\\"i\"!" true none = .ok out ∧
        (out.build Markup.Tree "hljs-").content = "say \"h\\\"i\"!" := by
  obtain ⟨l, -, hl⟩ : ∃ l : Language (Checked Regex.Tried),
      Language.compile Registry.quoted "Quoted" = .ok l ∧
        ((l.modes.all fun m => decide ((∀ r ∈ m.matcher.rules,
          r.Accepted Regex.Tried m.matcher.foldCase) ∧ m.TakesOnce)) &&
        (highlight (Registry.empty.put "Quoted" l) {} "Quoted" "say \"h\\\"i\"!" true none).isOk) :=
    exists_of_any (by decide +kernel)
  obtain ⟨hmodes, hok⟩ := (Bool.and_eq_true _ _ ▸ hl : _ ∧ _)
  simp only [Array.all_eq_true_iff_forall_mem, decide_eq_true_eq] at hmodes
  obtain ⟨out, hout⟩ := exists_of_isOk hok
  have hr : (Registry.empty.put "Quoted" l).Lossless := by
    intro e he
    rw [Registry.languages_put] at he
    obtain rfl : e = (Registry.fold "Quoted", l) := List.mem_singleton.mp he
    exact Language.lossless_of_accepted hmodes
  exact ⟨_, out, hr, hout, (content_highlight_detect _ hr {} _).1 _ _ _ _ hout⟩

end CodeMarkup
