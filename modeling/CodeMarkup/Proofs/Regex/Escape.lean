import CodeMarkup.Proofs.Regex.Track

/-! # Reading escapes and brackets

What an escape stands for, references by number and edges of words aside, depends on the characters
that it is written with and on nothing that follows. The same holds of a plain bracket.

Two runs of the reader are compared where both succeed (`Leads`). -/

namespace CodeMarkup.Regex

open Pattern (namesProperty insidePlain bracketPlain)
open Pattern.Part (isOther bracketEnd?)

namespace PatternReader

/-! ### Single steps -/

section Steps

variable {α β σ : Type}

theorem run_get_bind (s : σ) (f : σ → StateT σ (Except Fault) α) :
    ((get : StateT σ (Except Fault) σ) >>= f) s = f s s := rfl

theorem run_bind_ok {f : StateT σ (Except Fault) α} {g : α → StateT σ (Except Fault) β} {a : α}
    {s t : σ} (h : f s = .ok (a, t)) : (f >>= g) s = g a t := by
  change (f s >>= fun x => g x.1 x.2) = _
  rw [h]
  rfl

variable (s : ReaderState)

theorem run_pure (a : α) : (pure a : PatternReader α) s = .ok (a, s) := rfl

theorem run_rest_bind (f : List Char → PatternReader α) : (rest >>= f) s = f s.rest s := rfl

theorem run_goTo_bind (cs : List Char) (f : Unit → PatternReader α) :
    (goTo cs >>= f) s = f () { s with rest := cs } := rfl

variable {s}

theorem of_run_bind {f : PatternReader α} {g : α → PatternReader β} {b : β} {u : ReaderState}
    (h : (f >>= g) s = .ok (b, u)) : ∃ a t, f s = .ok (a, t) ∧ g a t = .ok (b, u) := by
  change (f s >>= fun x => g x.1 x.2) = _ at h
  cases hf : f s with
  | error e =>
    rw [hf] at h
    cases h
  | ok x =>
    rw [hf] at h
    exact ⟨x.1, x.2, rfl, h⟩

end Steps

end PatternReader

/-! ### Two runs -/

/-- Two runs of the reader: if both succeed, their results are related. -/
def Leads {α β : Type} (f : Except Fault (α × ReaderState)) (g : Except Fault (β × ReaderState))
    (Q : α → ReaderState → β → ReaderState → Prop) : Prop :=
  ∀ a t a' t', f = .ok (a, t) → g = .ok (a', t') → Q a t a' t'

namespace Leads

open PatternReader

variable {α β γ δ : Type} {Q : α → ReaderState → β → ReaderState → Prop}

theorem ok {a : α} {t : ReaderState} {a' : β} {t' : ReaderState} (h : Q a t a' t') :
    Leads (.ok (a, t)) (.ok (a', t')) Q := by
  rintro _ _ _ _ ⟨⟩ ⟨⟩
  exact h

theorem error_left (e : Fault) (g : Except Fault (β × ReaderState)) : Leads (.error e) g Q := by
  rintro _ _ _ _ ⟨⟩

theorem error_right (f : Except Fault (α × ReaderState)) (e : Fault) : Leads f (.error e) Q := by
  rintro _ _ _ _ _ ⟨⟩

theorem bind {f : PatternReader α} {g : PatternReader β} {s s' : ReaderState}
    {h : α → PatternReader γ} {h' : β → PatternReader δ}
    {R : γ → ReaderState → δ → ReaderState → Prop} (hf : Leads (f s) (g s') Q)
    (hk : ∀ a t a' t', Q a t a' t' → Leads (h a t) (h' a' t') R) :
    Leads ((f >>= h) s) ((g >>= h') s') R := by
  intro b u b' u' hb hb'
  obtain ⟨a, t, ha, hb⟩ := of_run_bind hb
  obtain ⟨a', t', ha', hb'⟩ := of_run_bind hb'
  exact hk a t a' t' (hf a t a' t' ha ha') b u b' u' hb hb'

theorem imp {f : Except Fault (α × ReaderState)} {g : Except Fault (β × ReaderState)}
    {R : α → ReaderState → β → ReaderState → Prop} (h : Leads f g Q)
    (hQ : ∀ a t a' t', Q a t a' t' → R a t a' t') : Leads f g R :=
  fun a t a' t' hf hg => hQ _ _ _ _ (h a t a' t' hf hg)

end Leads

namespace PatternReader

/-- The reader takes the characters `pre` and finds `a`, whatever follows. -/
def Takes {α : Type} (f : PatternReader α) (pre : List Char) (a : α) : Prop :=
  ∀ (s : ReaderState) (rest : List Char),
    f { s with rest := pre ++ rest } = .ok (a, { s with rest := rest })

/-- A character that an escape may go on with: it is a part of its own and ends no bracket. -/
def isInner (c : Char) : Bool := isOther c && c != ']'

theorem span_append_cons {q : Char → Bool} {ds : List Char} (hd : ∀ c ∈ ds, q c) {x : Char}
    (hx : q x = false) (rest : List Char) : (ds ++ x :: rest).span q = (ds, x :: rest) := by
  rw [List.span_eq_takeWhile_dropWhile, List.takeWhile_append_of_pos hd,
    List.dropWhile_append_of_pos hd]
  simp [hx]

theorem of_span_eq {q : Char → Bool} {cs ds rest : List Char} (h : cs.span q = (ds, rest)) :
    cs = ds ++ rest ∧ (∀ c ∈ ds, q c) ∧ rest.head?.all (!q ·) := by
  rw [List.span_eq_takeWhile_dropWhile] at h
  obtain ⟨rfl, rfl⟩ := Prod.mk.inj h
  refine ⟨List.takeWhile_append_dropWhile.symm, fun c hc => List.mem_takeWhile_imp hc, ?_⟩
  have := List.head?_dropWhile_not q cs
  cases hd : (cs.dropWhile q).head? with
  | none => rfl
  | some c => simpa [hd] using this

/-! ### Codes -/

theorem hexValue?_of_hexNumber? {n : Nat} : ∀ {cs : List Char} {acc : Option Nat},
    cs.foldl (fun n? c => do return 16 * (← n?) + (← Text.hexValue? c)) acc = some n →
      acc.isSome ∧ ∀ c ∈ cs, (Text.hexValue? c).isSome
  | [], acc, h => by
    rw [List.foldl_nil] at h
    simp [h]
  | c :: cs, acc, h => by
    obtain ⟨ha, hcs⟩ := @hexValue?_of_hexNumber? n cs _ h
    cases acc with
    | none => simp at ha
    | some m =>
      cases hc : Text.hexValue? c with
      | none => simp [hc] at ha
      | some v => simpa [hc] using hcs

theorem isInner_of_hexValue? {c : Char} (h : (Text.hexValue? c).isSome) : isInner c := by
  simp only [isInner, isOther, Bool.and_eq_true, bne_iff_ne]
  refine ⟨⟨⟨?_, ?_⟩, ?_⟩, ?_⟩ <;> rintro rfl <;> exact absurd h (by decide)

/-- A brace is no digit. -/
theorem hexCode?_brace {width : Nat} (hw : 0 < width) (cs : List Char) :
    hexCode? width ('\x7b' :: cs) = match cs.span fun c => (Text.hexValue? c).isSome with
      | (digits, '\x7d' :: after) =>
        if digits.isEmpty ∨ 8 < digits.length then none
        else (hexNumber? digits).map (·, after)
      | _ => none := by
  have hn : (if (List.take width ('\x7b' :: cs)).length = width then
      hexNumber? (List.take width ('\x7b' :: cs)) else none) = none := by
    split
    · cases hx : hexNumber? (List.take width ('\x7b' :: cs)) with
      | none => rfl
      | some n =>
        obtain ⟨k, rfl⟩ := Nat.exists_eq_succ_of_ne_zero (Nat.pos_iff_ne_zero.mp hw)
        exact absurd ((hexValue?_of_hexNumber? hx).2 '\x7b' List.mem_cons_self) (by decide)
    · rfl
  unfold hexCode?
  dsimp only
  generalize (if (List.take width ('\x7b' :: cs)).length = width then
    hexNumber? (List.take width ('\x7b' :: cs)) else none) = first at hn ⊢
  subst hn
  rfl

theorem hexCode?_takes {width n : Nat} (hw : 0 < width) {cs rest : List Char}
    (h : hexCode? width cs = some (n, rest)) : ∃ pre, cs = pre ++ rest ∧
      (∀ c ∈ pre, isInner c) ∧ ∀ rest', hexCode? width (pre ++ rest') = some (n, rest') := by
  unfold hexCode? at h
  dsimp only at h
  -- as many digits as the width says, or else digits in braces
  split at h
  · next m hm =>
    obtain ⟨rfl, rfl⟩ := Prod.mk.inj (Option.some.inj h)
    split at hm
    · next hl =>
      refine ⟨cs.take width, (List.take_append_drop _ _).symm,
        fun c hc => isInner_of_hexValue? ((hexValue?_of_hexNumber? hm).2 c hc), fun rest' => ?_⟩
      have ht : (cs.take width ++ rest').take width = cs.take width := by
        rw [List.take_append_of_le_length (by omega), List.take_of_length_le (by omega)]
      have hd : (cs.take width ++ rest').drop width = rest' := by
        rw [List.drop_append_of_le_length (by omega), List.drop_of_length_le (by omega),
          List.nil_append]
      simp only [hexCode?, ht, hd, hl, if_true, hm]
    · cases hm
  · split at h
    · next ds =>
      split at h
      · next digits after hs =>
        split at h
        · cases h
        · next hlen =>
          obtain ⟨m, hm, he⟩ := Option.map_eq_some_iff.mp h
          obtain ⟨rfl, rfl⟩ := Prod.mk.inj he
          obtain ⟨rfl, hall, -⟩ := of_span_eq hs
          refine ⟨'\x7b' :: (digits ++ ['\x7d']), by simp, ?_, fun rest' => ?_⟩
          · intro c hc
            simp only [List.mem_cons, List.mem_append, List.not_mem_nil, or_false] at hc
            rcases hc with rfl | hc | rfl
            · rfl
            · exact isInner_of_hexValue? (hall c hc)
            · rfl
          · have hspan := span_append_cons hall (show (Text.hexValue? '\x7d').isSome = false by decide)
              rest'
            rw [List.cons_append, List.append_assoc, List.singleton_append, hexCode?_brace hw, hspan]
            simp only [hlen, if_false, hm, Option.map_some]
      · cases h
    · cases h

theorem hexChar_takes {width : Nat} (hw : 0 < width) {s t : ReaderState} {a : Escaped}
    (h : hexChar width s = .ok (a, t)) : ∃ pre, s.rest = pre ++ t.rest ∧
      (∀ c ∈ pre, isInner c) ∧ Takes (hexChar width) pre a ∧ ∃ c, a = .char c true := by
  unfold hexChar at h
  rw [run_rest_bind] at h
  cases hc : hexCode? width s.rest with
  | none =>
    rw [hc] at h
    cases h
  | some found =>
    obtain ⟨n, after⟩ := found
    rw [hc] at h
    obtain ⟨pre, hs, hp, ht⟩ := hexCode?_takes hw hc
    by_cases hn : n.isValidChar
    · simp only [hn, if_true, run_goTo_bind, run_pure, Except.ok.injEq, Prod.mk.injEq] at h
      obtain ⟨rfl, rfl⟩ := h
      refine ⟨pre, hs, hp, fun s rest => ?_, _, rfl⟩
      simp only [hexChar, run_rest_bind, ht, hn, if_true]
      rfl
    · simp only [hn, if_false] at h
      cases h

/-! ### Properties -/

theorem property_letter {letter c : Char} (hc : c ≠ '\x7b') (s : ReaderState) (cs : List Char) :
    property letter { s with rest := c :: cs } =
      .ok (.set (String.ofList ['\\', letter, c]), { s with rest := cs }) := by
  unfold property
  rw [run_rest_bind]
  simp
  rfl

theorem property_name {letter : Char} {name : List Char} (hn : ∀ c ∈ name, c ≠ '\x7d')
    (s : ReaderState) (cs : List Char) :
    property letter { s with rest := '\x7b' :: (name ++ '\x7d' :: cs) } =
      .ok (.set (String.ofList ('\\' :: letter :: '\x7b' :: name ++ ['\x7d'])),
        { s with rest := cs }) := by
  have hs : (name ++ '\x7d' :: cs).span (· ≠ '\x7d') = (name, '\x7d' :: cs) :=
    span_append_cons (by simpa using hn) (by decide) cs
  unfold property
  rw [run_rest_bind]
  simp only [hs]
  rfl

theorem property_takes {letter : Char} {s t : ReaderState} {a : Escaped}
    (hp : namesProperty s.rest) (h : property letter s = .ok (a, t)) :
    ∃ pre, s.rest = pre ++ t.rest ∧ (∀ c ∈ pre, isInner c) ∧ Takes (property letter) pre a ∧
      ∃ written, a = .set written := by
  match hs : s.rest with
  | [] =>
    rw [property, run_rest_bind, hs] at h
    cases h
  | c :: cs =>
    rw [← show { s with rest := c :: cs } = s by rw [← hs]] at h
    rw [hs] at hp
    -- a name in braces, or else one letter
    by_cases hb : c = '\x7b'
    · subst hb
      match hx : cs.span (· ≠ '\x7d') with
      | (name, []) =>
        unfold property at h
        rw [run_rest_bind] at h
        simp only [hx] at h
        cases h
      | (name, x :: after) =>
        obtain ⟨rfl, hall, hstop⟩ := of_span_eq hx
        obtain rfl : x = '\x7d' := by simpa using hstop
        have hname : ∀ c ∈ name, c ≠ '\x7d' := by simpa using hall
        rw [property_name hname] at h
        obtain ⟨rfl, rfl⟩ := Prod.mk.inj (Except.ok.inj h)
        refine ⟨'\x7b' :: (name ++ ['\x7d']), by simp, ?_, fun s' rest => ?_, _, rfl⟩
        · have ht : (name ++ '\x7d' :: after).takeWhile (· ≠ '\x7d') = name := by
            rw [List.takeWhile_append_of_pos (by simpa using hname)]
            simp
          simp only [namesProperty, ht, List.all_eq_true] at hp
          intro c hc
          simp only [List.mem_cons, List.mem_append, List.not_mem_nil, or_false] at hc
          rcases hc with rfl | hc | rfl
          · rfl
          · exact hp c hc
          · rfl
        · rw [List.cons_append, List.append_assoc, List.singleton_append, property_name hname]
    · rw [property_letter hb] at h
      obtain ⟨rfl, rfl⟩ := Prod.mk.inj (Except.ok.inj h)
      refine ⟨[c], rfl, ?_, fun s' rest => property_letter hb s' rest, _, rfl⟩
      have hc : isInner c := by
        unfold namesProperty at hp
        split at hp
        · simp_all
        · simp_all [isInner]
        · simp_all
      simpa using hc

/-! ### Escapes -/

/-- The characters whose escapes have a meaning of their own. -/
def meaningful : List Char :=
  ['A', 'z', '<', '>', 'K', 'G', 'd', 'D', 's', 'S', 'w', 'W', 'h', 'H', 'b', 'B', 'k', 'x', 'u',
    'U', 'p', 'P']

/-- What an escape stands for if it has no meaning of its own. -/
def escapedChar (c : Char) : Except Fault Escaped :=
  match control? c with
  | some d => .ok (.char d false)
  | none =>
    if c.isAlpha && ! ['k', 'A', 'z', 'B', 'K', 'G'].contains c then .error .badEscape
    else .ok (.char c false)

theorem escape_char (inBracket : Bool) {c : Char} (hd : c.isDigit = false) (h : c ∉ meaningful)
    (s : ReaderState) (after : List Char) : escape inBracket { s with rest := c :: after } =
      (escapedChar c).map (·, { s with rest := after }) := by
  simp only [meaningful, List.mem_cons, List.not_mem_nil, or_false, not_or] at h
  have ho : (if inBracket then none else outsideEscape? c after) = none := by
    unfold outsideEscape?
    cases inBracket
    · rw [if_neg Bool.false_ne_true]
      split <;> first | rfl | simp_all
    · rfl
  simp only [escape, run_rest_bind, hd, ho, run_goTo_bind, Bool.false_eq_true, if_false]
  unfold escapedChar
  cases control? c with
  | some c' => split <;> first | rfl | simp_all
  | none => split <;> first | (exfalso; simp_all; done) | (dsimp only; split <;> rfl)

/-- What the escape of a character may stand for: an expression only if it is an anchor or a
directive. -/
def Escaped.From (c : Char) (a : Escaped) : Prop :=
  ∀ e, a = .expr e → (∃ x, e = .anchor x) ∨ e = .keepOut ∧ c = 'K' ∨ e = .searchStart ∧ c = 'G'

section Takes

variable {inBracket : Bool} {c : Char} {after : List Char} {s t : ReaderState} {a : Escaped}

/-- The escape has been read, and would be whatever followed it. -/
structure EscapeTaken (inBracket : Bool) (c : Char) (after : List Char) (a : Escaped)
    (t : ReaderState) (pre : List Char) : Prop where
  text : after = pre ++ t.rest
  inner : ∀ d ∈ pre, isInner d
  takes : Takes (escape inBracket) (c :: pre) a
  from_ : a.From c

theorem escapeTaken_nil {a' : Escaped} (ht : Takes (escape inBracket) [c] a') (hf : a'.From c)
    (h : escape inBracket { s with rest := c :: after } = .ok (a, t)) :
    EscapeTaken inBracket c after a t [] := by
  rw [← List.singleton_append, ht] at h
  obtain ⟨rfl, rfl⟩ := Prod.mk.inj (Except.ok.inj h)
  exact ⟨rfl, by simp, ht, hf⟩

/-- **An escape stands for the same whatever follows it.** Left out are references, and the edges of
words, which no brace may follow. -/
theorem exists_escapeTaken (hd : c.isDigit = false) (hb : inBracket = false → c ∉ ['k', 'b', 'B'])
    (hp : c = 'p' ∨ c = 'P' → namesProperty after)
    (h : escape inBracket { s with rest := c :: after } = .ok (a, t)) :
    ∃ pre, EscapeTaken inBracket c after a t pre := by
  have hset : ∀ w, (Escaped.set w).From c := fun w e he => by cases he
  have hchar : ∀ d f, (Escaped.char d f).From c := fun d f e he => by cases he
  by_cases hx : c ∈ ['x', 'u', 'U']
  · have ht : ∃ width, 0 < width ∧ ∀ (s : ReaderState) (after : List Char),
        escape inBracket { s with rest := c :: after } = hexChar width { s with rest := after } := by
      simp only [List.mem_cons, List.not_mem_nil, or_false] at hx
      rcases hx with rfl | rfl | rfl
      · exact ⟨2, by decide, fun s after => by cases inBracket <;> rfl⟩
      · exact ⟨4, by decide, fun s after => by cases inBracket <;> rfl⟩
      · exact ⟨8, by decide, fun s after => by cases inBracket <;> rfl⟩
    obtain ⟨width, hw, ht⟩ := ht
    rw [ht] at h
    obtain ⟨pre, htext, hpre, htakes, d, rfl⟩ := hexChar_takes hw h
    exact ⟨pre, htext, hpre, fun s rest => (ht s _).trans (htakes s rest), hchar _ _⟩
  by_cases hq : c ∈ ['p', 'P']
  · simp only [List.mem_cons, List.not_mem_nil, or_false] at hq
    have ht : ∀ (s : ReaderState) (after : List Char),
        escape inBracket { s with rest := c :: after } = property c { s with rest := after } := by
      rcases hq with rfl | rfl <;> exact fun s after => by cases inBracket <;> rfl
    rw [ht] at h
    obtain ⟨pre, htext, hpre, htakes, w, rfl⟩ := property_takes (hp hq) h
    exact ⟨pre, htext, hpre, fun s rest => (ht s _).trans (htakes s rest), hset _⟩
  by_cases hm : c ∈ meaningful
  · simp only [meaningful, List.mem_cons, List.not_mem_nil, or_false] at hm hx hq
    refine ⟨[], ?_⟩
    -- a letter with a meaning is read alone; those that read on have been dealt with
    rcases hm with rfl | rfl | rfl | rfl | rfl | rfl | rfl | rfl | rfl | rfl | rfl | rfl | rfl |
      rfl | rfl | rfl | rfl | rfl | rfl | rfl | rfl | rfl
    all_goals cases inBracket
    all_goals first
      | exact escapeTaken_nil (fun s rest => rfl) (by rintro e ⟨⟩ <;> simp) h
      | exact absurd (hb rfl) (by decide)
      | exact absurd (by decide) hx
      | exact absurd (by decide) hq
  · have he := escape_char inBracket hd hm
    cases hc : escapedChar c with
    | error fault =>
      rw [he, hc] at h
      cases h
    | ok a' =>
      have ht : Takes (escape inBracket) [c] a' := by
        intro s rest
        rw [List.singleton_append, he, hc]
        rfl
      refine ⟨[], escapeTaken_nil ht ?_ h⟩
      · unfold escapedChar at hc
        split at hc
        · cases hc
          exact hchar _ _
        · split at hc
          · cases hc
          · cases hc
            exact hchar _ _

end Takes

/-- A digit behind a backslash makes a reference. -/
theorem expr_of_isDigit {inBracket : Bool} {c : Char} (hd : c.isDigit) {s t : ReaderState}
    {after : List Char} {a : Escaped}
    (h : escape inBracket { s with rest := c :: after } = .ok (a, t)) : ∃ e, a = .expr e := by
  unfold escape at h
  simp only [run_rest_bind, hd, if_true] at h
  change (numberedReference _ >>= fun x => Except.ok (Escaped.expr x.1, x.2)) = _ at h
  cases hx : numberedReference { s with rest := c :: after } with
  | error fault =>
    rw [hx] at h
    cases h
  | ok x =>
    rw [hx] at h
    obtain ⟨rfl, -⟩ := Prod.mk.inj (Except.ok.inj h)
    exact ⟨_, rfl⟩

/-! ### Brackets -/

theorem bracketEnd?_cons {c : Char} (h : isInner c) (cs : List Char) :
    bracketEnd? (c :: cs) = (bracketEnd? cs).map fun (inside, rest) => (c :: inside, rest) := by
  simp only [isInner, isOther, Bool.and_eq_true, bne_iff_ne] at h
  obtain ⟨⟨⟨-, -⟩, hs⟩, hb⟩ := h
  rw [bracketEnd?] <;> simp_all

/-- Characters that an escape goes on with stand inside the bracket. -/
theorem bracketEnd?_append : ∀ {pre : List Char}, (∀ c ∈ pre, isInner c) →
    ∀ {cs inside rest : List Char}, bracketEnd? (pre ++ cs) = some (inside, rest) →
      ∃ inside', inside = pre ++ inside' ∧ bracketEnd? cs = some (inside', rest)
  | [], _, cs, inside, rest, h => ⟨inside, rfl, h⟩
  | c :: pre, hp, cs, inside, rest, h => by
    rw [List.cons_append, bracketEnd?_cons (hp c List.mem_cons_self)] at h
    obtain ⟨⟨i, r⟩, hs, he⟩ := Option.map_eq_some_iff.mp h
    obtain ⟨rfl, rfl⟩ := Prod.mk.inj he
    obtain ⟨inside', rfl, hc⟩ :=
      bracketEnd?_append (fun c hc => hp c (List.mem_cons_of_mem _ hc)) hs
    exact ⟨inside', rfl, hc⟩

theorem insidePlain_append : ∀ {pre : List Char}, (∀ c ∈ pre, isInner c) →
    ∀ {inside : List Char}, insidePlain (pre ++ inside) → insidePlain inside
  | [], _, _, h => h
  | c :: pre, hp, inside, h => by
    have hc := hp c List.mem_cons_self
    simp only [isInner, isOther, Bool.and_eq_true, bne_iff_ne] at hc
    refine insidePlain_append (fun c hc => hp c (List.mem_cons_of_mem _ hc)) ?_
    rw [List.cons_append, insidePlain] at h
    · simp_all
    · simp_all

/-- A bracket ends with its closing bracket. -/
theorem mem_of_bracketEnd? {cs inside rest : List Char} (h : bracketEnd? cs = some (inside, rest)) :
    ']' ∈ inside := by
  fun_induction bracketEnd? cs generalizing inside with
  | case1 => cases h
  | case2 cs =>
    obtain ⟨rfl, -⟩ := Prod.mk.inj (Option.some.inj h)
    exact List.mem_cons_self
  | case3 => cases h
  | case4 c cs ih =>
    obtain ⟨⟨i, r⟩, hs, he⟩ := Option.map_eq_some_iff.mp h
    obtain ⟨rfl, rfl⟩ := Prod.mk.inj he
    exact List.mem_cons_of_mem _ (List.mem_cons_of_mem _ (ih hs))
  | case5 c cs _ _ _ ih =>
    obtain ⟨⟨i, r⟩, hs, he⟩ := Option.map_eq_some_iff.mp h
    obtain ⟨rfl, rfl⟩ := Prod.mk.inj he
    exact List.mem_cons_of_mem _ (ih hs)

/-- The name of a property inside a bracket ends before the bracket does. -/
theorem namesProperty_append {inside : List Char} (hm : ']' ∈ inside) (h : namesProperty inside)
    (rest : List Char) : namesProperty (inside ++ rest) := by
  unfold namesProperty at h
  split at h
  · next cs =>
    have ht : (cs.takeWhile (· ≠ '\x7d')).length ≠ cs.length := by
      intro hl
      have he : cs.takeWhile (· ≠ '\x7d') = cs :=
        (List.takeWhile_prefix _).eq_of_length hl
      rw [he, List.all_eq_true] at h
      have hm' : ']' ∈ cs := by simpa using hm
      exact absurd (h _ hm') (by decide)
    rw [List.cons_append]
    unfold namesProperty
    simp only [List.takeWhile_append, ht, if_false]
    exact h
  · next c cs hc =>
    unfold namesProperty
    split
    · simp_all
    · simp_all
    · simp_all
  · cases h

/-- What an escape inside a bracket leads to, one text going on behind the bracket with `rest` and
the other with `rest'`. -/
theorem escape_inside_leads {c : Char} {cs i rest : List Char} (hi : bracketEnd? cs = some (i, rest))
    (hprop : c = 'p' ∨ c = 'P' → namesProperty i) (hp : insidePlain i) (rest' : List Char)
    (s s' : ReaderState) : Leads (escape true { s with rest := c :: cs })
      (escape true { s' with rest := c :: (i ++ rest') }) fun a t a' t' =>
        (∃ e, a = .expr e) ∨ a' = a ∧ ∃ cs i, t = { s with rest := cs } ∧
          t' = { s' with rest := i ++ rest' } ∧ bracketEnd? cs = some (i, rest) ∧ insidePlain i := by
  intro a t a' t' h h'
  by_cases hd : c.isDigit
  · exact Or.inl (expr_of_isDigit hd h)
  have hname : c = 'p' ∨ c = 'P' → namesProperty cs := by
    intro hc
    rw [← Pattern.Part.append_of_bracketEnd? hi]
    exact namesProperty_append (mem_of_bracketEnd? hi) (hprop hc) _
  obtain ⟨pre, htext, hpre, htakes, -⟩ := exists_escapeTaken (by simpa using hd) (by simp) hname h
  rw [htext] at hi h
  obtain ⟨i', rfl, hi'⟩ := bracketEnd?_append hpre hi
  have ht := htakes s t.rest
  have ht' := htakes s' (i' ++ rest')
  rw [List.cons_append] at ht ht'
  rw [ht] at h
  rw [List.append_assoc, ht'] at h'
  obtain ⟨-, hst⟩ := Prod.mk.inj (Except.ok.inj h)
  obtain ⟨rfl, rfl⟩ := Prod.mk.inj (Except.ok.inj h')
  exact Or.inr ⟨rfl, t.rest, i', hst.symm, rfl, hi', insidePlain_append hpre hp⟩

theorem bracketText_other {c : Char} (h : c ≠ '\\' ∧ c ≠ '[' ∧ c ≠ ']') (n : Nat)
    (found cs : List Char) (s : ReaderState) :
    bracketText (n + 1) 1 found { s with rest := c :: cs } =
      bracketText n 1 (c :: found) { s with rest := cs } := by
  conv_lhs => unfold bracketText
  simp only [run_rest_bind]
  split <;> simp_all
  rfl

/-- The text of a bracket does not depend on what follows the bracket. -/
theorem bracketText_leads : ∀ (n n' : Nat) (found cs inside rest rest' : List Char)
    (s s' : ReaderState), bracketEnd? cs = some (inside, rest) → insidePlain inside →
      Leads (bracketText n 1 found { s with rest := cs })
        (bracketText n' 1 found { s' with rest := inside ++ rest' })
        fun a t a' t' => a' = a ∧ t = { s with rest := rest } ∧ t' = { s' with rest := rest' }
  | 0, _, _, _, _, _, _, _, _, _, _ => Leads.error_left _ _
  | _ + 1, 0, _, _, _, _, _, _, _, _, _ => Leads.error_right _ _
  | _ + 1, _ + 1, _, [], _, _, _, _, _, hb, _ => by cases hb
  | n + 1, n' + 1, found, c :: cs, inside, rest, rest', s, s', hb, hp => by
    by_cases hc : c = ']'
    · subst hc
      obtain ⟨rfl, rfl⟩ := Prod.mk.inj (Option.some.inj hb)
      exact Leads.ok ⟨rfl, rfl, rfl⟩
    by_cases he : c = '\\'
    · subst he
      match cs with
      | [] => cases hb
      | c :: cs =>
        obtain ⟨⟨i, r⟩, hi, he⟩ := Option.map_eq_some_iff.mp hb
        obtain ⟨rfl, rfl⟩ := Prod.mk.inj he
        simp only [insidePlain, Bool.and_eq_true, Bool.or_eq_true, bne_iff_ne, ne_eq] at hp
        obtain ⟨hprop, hp⟩ := hp
        unfold bracketText
        simp only [run_rest_bind, run_goTo_bind, List.cons_append]
        refine Leads.bind (escape_inside_leads hi (fun hc => hprop.resolve_left (by tauto)) hp _ s s')
          ?_
        rintro a t a' t' (⟨e, rfl⟩ | ⟨rfl, cs, i, rfl, rfl, hi, hp⟩)
        · exact Leads.error_left _ _
        · cases a' with
          | char d folds => exact bracketText_leads n n' _ _ _ _ _ _ _ hi hp
          | set written => exact bracketText_leads n n' _ _ _ _ _ _ _ hi hp
          | expr e => exact Leads.error_left _ _
    · have hb' : (bracketEnd? cs).map (fun (inside, rest) => (c :: inside, rest)) =
          some (inside, rest) := by
        rw [← hb, bracketEnd?] <;> simp_all
      obtain ⟨⟨i, r⟩, hi, hir⟩ := Option.map_eq_some_iff.mp hb'
      obtain ⟨rfl, rfl⟩ := Prod.mk.inj hir
      have hp' : c ≠ '[' ∧ insidePlain i := by
        rw [insidePlain] at hp <;> simp_all
      rw [List.cons_append, bracketText_other ⟨he, hp'.1, hc⟩, bracketText_other ⟨he, hp'.1, hc⟩]
      exact bracketText_leads n n' _ _ _ _ _ _ _ hi hp'.2

theorem bracketStart_eq {cs : List Char} (h : cs.head? ≠ some '^') (h' : cs.head? ≠ some ']') :
    bracketStart cs = (['['], cs) := by
  cases cs with
  | nil => rfl
  | cons c cs =>
    have hn : c ≠ '^' := by simpa using h
    have hc : c ≠ ']' := by simpa using h'
    simp [bracketStart, hn, hc]

theorem bracketStart_negated {cs : List Char} (h : cs.head? ≠ some ']') :
    bracketStart ('^' :: cs) = (['^', '['], cs) := by
  cases cs with
  | nil => rfl
  | cons c cs =>
    have hc : c ≠ ']' := by simpa using h
    simp [bracketStart, hc]

/-- A bracket that starts with its end is closed by it. -/
theorem eq_of_head?_bracketEnd? {cs inside rest : List Char}
    (h : bracketEnd? cs = some (inside, rest)) (hc : cs.head? = some ']') : inside = [']'] := by
  obtain ⟨ds, rfl⟩ := List.head?_eq_some_iff.mp hc
  obtain ⟨rfl, -⟩ := Prod.mk.inj (Option.some.inj h)
  rfl

/-- The start of a plain bracket is the same whatever follows the bracket. -/
theorem exists_bracketStart {cs inside rest : List Char}
    (hb : bracketEnd? cs = some (inside, rest)) (hp : bracketPlain inside) :
    ∃ found ds i, bracketStart cs = (found, ds) ∧ bracketEnd? ds = some (i, rest) ∧ insidePlain i ∧
      ∀ rest', bracketStart (inside ++ rest') = (found, i ++ rest') := by
  simp only [bracketPlain, Bool.and_eq_true, bne_iff_ne] at hp
  obtain ⟨⟨h1, h2⟩, hp⟩ := hp
  obtain ⟨c, i, rfl⟩ := List.exists_cons_of_ne_nil (List.ne_nil_of_mem (mem_of_bracketEnd? hb))
  have hcs := Pattern.Part.append_of_bracketEnd? hb
  rw [List.cons_append] at hcs
  subst hcs
  have hc : c ≠ ']' := fun h => h1 (eq_of_head?_bracketEnd? hb (by simp [h]))
  by_cases hn : c = '^'
  · subst hn
    rw [bracketEnd?_cons (by rfl)] at hb
    obtain ⟨⟨i', r⟩, hi, he⟩ := Option.map_eq_some_iff.mp hb
    simp only [Prod.mk.injEq, List.cons.injEq, true_and] at he
    obtain ⟨rfl, rfl⟩ := he
    obtain ⟨d, i, rfl⟩ := List.exists_cons_of_ne_nil (List.ne_nil_of_mem (mem_of_bracketEnd? hi))
    have hd : d ≠ ']' := fun h => h2 (by rw [eq_of_head?_bracketEnd? hi (by simp [h])])
    exact ⟨_, _, d :: i, bracketStart_negated (by simpa using hd), hi, by simpa [insidePlain] using hp,
      fun rest' => bracketStart_negated (by simpa using hd)⟩
  · exact ⟨_, _, c :: i, bracketStart_eq (by simpa using hn) (by simpa using hc), hb, hp,
      fun rest' => bracketStart_eq (by simpa using hn) (by simpa using hc)⟩

/-- **A plain bracket is read to the same set whatever follows it.** -/
theorem bracket_leads {cs inside rest : List Char} (hb : bracketEnd? cs = some (inside, rest))
    (hp : bracketPlain inside) (n n' : Nat) (rest' : List Char) (s s' : ReaderState)
    (hf : s'.flags = s.flags) : Leads (bracket n { s with rest := cs })
      (bracket n' { s' with rest := inside ++ rest' }) fun a t a' t' =>
        a' = a ∧ (∃ written foldCase, a = .set written foldCase) ∧ t = { s with rest := rest } ∧
          t' = { s' with rest := rest' } := by
  obtain ⟨found, ds, i, hs, hi, hip, hs'⟩ := exists_bracketStart hb hp
  unfold bracket
  simp only [run_get_bind, hs, hs', run_goTo_bind]
  refine Leads.bind (bracketText_leads n n' found ds i rest rest' s s' hi hip) ?_
  rintro a t a' t' ⟨rfl, rfl, rfl⟩
  exact Leads.ok ⟨by rw [hf], ⟨_, _, rfl⟩, rfl, rfl⟩

end PatternReader

end CodeMarkup.Regex
