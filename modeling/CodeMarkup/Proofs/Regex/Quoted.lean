import CodeMarkup.Proofs.Regex.Literal

/-! # Quoted texts

A row of characters is handed over to the plain reader as text again, with a backslash before every
character that means something there (`write_charsOf`). It is read as one text
(`Plain.read_quoted`), which keeps within the limit of memory just if it is not too long
(`Plain.fits_ofChars`): its machines have a state for each byte. -/

namespace CodeMarkup.Regex

open PatternReader (run_bind_ok run_get_bind sequence)

/-! ### Writing -/

/-- A text in which each character stands for itself. -/
def quotedChars (cs : List Char) : List Char := cs.flatMap Expr.quoted

theorem writeRow_charsOf (cs : List Char) : Expr.writeRow (charsOf cs) = quotedChars cs := by
  induction cs with
  | nil => rfl
  | cons c cs ih =>
    rw [charsOf, List.map_cons, Expr.writeRow, Expr.write, quotedChars, List.flatMap_cons]
    exact congrArg (Expr.quoted c ++ ·) ih

/-- A row of characters is written as a quoted text. -/
theorem write_charsOf (cs : List Char) : (sequence (charsOf cs)).write 0 = quotedChars cs := by
  match cs with
  | [] => rfl
  | [c] => exact (List.append_nil _).symm
  | c :: d :: cs => exact writeRow_charsOf (c :: d :: cs)

/-- A row of characters is not hard. -/
theorem isHard_charsOf (cs : List Char) : (sequence (charsOf cs)).isHard = false := by
  have hany : ∀ cs : List Char, Expr.anyHard (charsOf cs) = false := by
    intro cs
    induction cs with
    | nil => rfl
    | cons c cs ih => exact ih
  match cs with
  | [] => rfl
  | [c] => rfl
  | c :: d :: cs => exact hany (c :: d :: cs)

namespace Plain

/-! ### Reading -/

/-- What a text is read as. -/
def Node.ofChars : List Char → Node
  | [] => .empty
  | cs => .text cs

namespace Reader

theorem run_goTo_bind {α : Type} (s : ReaderState) (cs : List Char) (f : Unit → Reader α) :
    (goTo cs >>= f) s = f () { s with rest := cs } := rfl

/-- The parts of a text, latest first. -/
def charParts (cs : List Char) : List Part := (cs.map fun c => ⟨.text [c], 0, true⟩).reverse

/-- A character behind a backslash stands for itself. -/
theorem escape?_quoted {c : Char} (hc : c ∈ ['\\', '.', '+', '*', '?', '(', ')', '|', '[', ']',
    '\x7b', '\x7d', '^', '$', '#']) (cs : List Char) :
    escape? false (c :: cs) = some (.inl c, cs) := by
  simp only [List.mem_cons, List.not_mem_nil, or_false] at hc
  rcases hc with rfl | rfl | rfl | rfl | rfl | rfl | rfl | rfl | rfl | rfl | rfl | rfl | rfl | rfl |
    rfl <;> rfl

/-- A quoted character is read as itself. -/
theorem row_quoted (steps : Nat) (found : List Part) (c : Char) (cs : List Char) {s : ReaderState}
    (hfold : s.flags.foldCase = false) :
    row (steps + 1) found { s with rest := Expr.quoted c ++ cs } =
      row steps (⟨.text [c], 0, true⟩ :: found) { s with rest := cs } := by
  unfold Expr.quoted
  split
  · next hc =>
    rw [List.cons_append, List.cons_append, List.nil_append, row, run_get_bind]
    simp only [hfold, escape?_quoted (List.contains_iff_mem.mp hc)]
    rfl
  · next hc =>
    have hne : ∀ d ∈ ['\\', '.', '+', '*', '?', '(', ')', '|', '[', ']', '\x7b', '\x7d', '^', '$',
        '#'], c ≠ d := fun d hd he => hc (List.contains_iff_mem.mpr (he ▸ hd))
    have hplain : c ≠ '(' ∧ c ≠ ')' ∧ c ≠ '|' ∧ c ≠ '[' ∧ c ≠ '?' ∧ c ≠ '*' ∧ c ≠ '+' ∧ c ≠ '\x7b' ∧
        c ≠ '\\' ∧ c ≠ '.' ∧ c ≠ '^' ∧ c ≠ '$' := by
      refine ⟨?_, ?_, ?_, ?_, ?_, ?_, ?_, ?_, ?_, ?_, ?_, ?_⟩ <;> exact hne _ (by decide)
    rw [List.singleton_append, row, run_get_bind]
    simp only [hplain, imp_self, run_goTo_bind, hfold]
    rfl

/-- A quoted text is read as its characters, one after the other. -/
theorem row_quotedChars {s : ReaderState} (hfold : s.flags.foldCase = false) :
    ∀ (cs : List Char) {steps : Nat} (found : List Part), cs.length < steps →
      row steps found { s with rest := quotedChars cs } =
        .ok (charParts cs ++ found, { s with rest := [] })
  | [], steps + 1, found, _ => by
    rw [row, run_get_bind]
    rfl
  | c :: cs, steps + 1, found, h => by
    have ih := row_quotedChars hfold cs (⟨.text [c], 0, true⟩ :: found) (Nat.lt_of_succ_lt_succ h)
    rw [quotedChars, List.flatMap_cons, row_quoted steps found c _ hfold]
    refine Eq.trans ih ?_
    rw [charParts, charParts, List.map_cons, List.reverse_cons, List.append_assoc]
    rfl

/-- Characters that follow one another are one text. -/
theorem foldr_pushAll_chars (c : Char) (cs : List Char) :
    ((c :: cs).map fun c => Node.text [c]).foldr Node.pushAll [] = [.text (c :: cs)] := by
  induction cs generalizing c with
  | nil => rfl
  | cons d cs ih =>
    rw [List.map_cons, List.foldr_cons, ih d]
    rfl

theorem concat_chars (cs : List Char) :
    Node.concat (cs.map fun c => .text [c]) = Node.ofChars cs := by
  cases cs with
  | nil => rfl
  | cons c cs =>
    rw [Node.concat, foldr_pushAll_chars]
    rfl

theorem heightOf_replicate_le (n : Nat) : heightOf (List.replicate n 0) ≤ 1 := by
  have hmax : (List.replicate n 0).foldl max 0 = 0 := by
    induction n with
    | zero => rfl
    | succ n ih => exact ih
  rw [heightOf, hmax]
  split <;> decide

/-- The parts of a text make the text, not deep. -/
theorem rowOf_charParts (cs : List Char) :
    (rowOf (charParts cs)).1 = Node.ofChars cs ∧ (rowOf (charParts cs)).2 ≤ 1 := by
  refine ⟨?_, ?_⟩
  · rw [rowOf, charParts, List.reverse_reverse, List.map_map]
    exact concat_chars cs
  · have hheights : (charParts cs).map (·.height) = List.replicate cs.length 0 := by
      refine List.eq_replicate_iff.mpr ⟨by simp [charParts], fun n hn => ?_⟩
      obtain ⟨part, hpart, rfl⟩ := List.mem_map.mp hn
      obtain ⟨c, -, rfl⟩ := List.mem_map.mp (List.mem_reverse.mp hpart)
      rfl
    rw [rowOf, hheights]
    exact heightOf_replicate_le cs.length

/-- Alternatives that are a quoted text are that text alone. -/
theorem alternatives_quotedChars (cs : List Char) {steps : Nat} (hsteps : cs.length < steps) :
    ∃ height ≤ 1, alternatives (steps + 1) [] { rest := quotedChars cs } =
      .ok ((Node.ofChars cs, height), { rest := [] }) := by
  have hrow : row steps [] { rest := quotedChars cs } = .ok (charParts cs, { rest := [] }) := by
    have h := row_quotedChars (s := { rest := [] }) rfl cs [] hsteps
    rwa [List.append_nil] at h
  have halone : Node.alternation [Node.ofChars cs] = Node.ofChars cs := by
    cases cs <;> rfl
  obtain ⟨hnode, hheight⟩ := rowOf_charParts cs
  have hheightOf : heightOf [(rowOf (charParts cs)).2] = (rowOf (charParts cs)).2 := by
    simp [heightOf]
  refine ⟨_, hheight, ?_⟩
  rw [alternatives, run_bind_ok hrow]
  change Except.ok ((Node.alternation [(rowOf (charParts cs)).1],
    heightOf [(rowOf (charParts cs)).2]), _) = _
  rw [hnode, halone, hheightOf]

end Reader

/-- **A quoted text is read as the text.** -/
theorem read_quoted (cs : List Char) : read (quotedChars cs) = .ok (Node.ofChars cs) := by
  have hlength : cs.length ≤ (quotedChars cs).length := by
    rw [quotedChars]
    induction cs with
    | nil => exact Nat.le_refl _
    | cons c cs ih =>
      rw [List.flatMap_cons, List.length_append, List.length_cons, Expr.quoted]
      split <;> simp only [List.length_cons, List.length_nil] <;> omega
  obtain ⟨height, hheight, hread⟩ :=
    Reader.alternatives_quotedChars cs (by omega : cs.length < 4 * (quotedChars cs).length + 15)
  have hlimit : ¬ heightLimit < height := Nat.not_lt.mpr (hheight.trans (by decide))
  unfold read
  simp only [StateT.run]
  rw [hread]
  change (if heightLimit < height then _ else _) = _
  rw [if_neg hlimit]
  rfl

/-! ### Size -/

/-- The memory that has been counted. -/
def Tally.memory (t : Tally) : Nat := 32 * t.states + t.held

/-- So many states more, and so much memory held by them. -/
def Tally.more (t : Tally) (states held : Nat) : Tally := ⟨t.states + states, t.held + held⟩

/-- A count adds so many states, which hold so much memory, and gives a result of this kind. It ends
just if the limit is passed by then. -/
def Costs {α : Type} (count : Sizing α) (states held : Nat) (Q : α → Prop) : Prop :=
  ∀ t : Tally, t.memory ≤ memoryLimit →
    ((t.more states held).memory ≤ memoryLimit →
        ∃ a, Q a ∧ count.run t = some (a, t.more states held)) ∧
      (memoryLimit < (t.more states held).memory → count.run t = none)

namespace Costs

variable {α β : Type} {states held states' held' : Nat} {Q : α → Prop} {R : β → Prop}

theorem pure {a : α} (ha : Q a) : Costs (pure a) 0 0 Q := by
  refine fun t ht => ⟨fun _ => ⟨a, ha, rfl⟩, fun hover => ?_⟩
  exact absurd ht (Nat.not_le_of_lt hover)

theorem bind {count : Sizing α} {next : α → Sizing β} (h : Costs count states held Q)
    (hnext : ∀ a, Q a → Costs (next a) states' held' R) :
    Costs (count >>= next) (states + states') (held + held') R := by
  intro t ht
  have hmore : t.more (states + states') (held + held') =
      (t.more states held).more states' held' := by
    simp only [Tally.more, Nat.add_assoc]
  have hmono : (t.more states held).memory ≤ ((t.more states held).more states' held').memory := by
    simp only [Tally.memory, Tally.more]
    omega
  obtain ⟨hfirst, hpast⟩ := h t ht
  rw [hmore]
  by_cases hkept : (t.more states held).memory ≤ memoryLimit
  · obtain ⟨a, ha, hrun⟩ := hfirst hkept
    obtain ⟨hsecond, hover⟩ := hnext a ha _ hkept
    have hbind : (count >>= next).run t = (next a).run (t.more states held) := by
      rw [StateT.run_bind, hrun]
      rfl
    rw [hbind]
    exact ⟨hsecond, hover⟩
  · refine ⟨fun hle => absurd (hmono.trans hle) hkept, fun _ => ?_⟩
    rw [StateT.run_bind, hpast (Nat.lt_of_not_le hkept)]
    rfl

theorem run_check (t u : Tally) : (Sizing.check u).run t =
    if u.memory ≤ memoryLimit then some ((), u) else none := by
  rw [Sizing.check, Tally.memory]
  split <;> rfl

theorem add (held : Nat) : Costs (Sizing.add held) 1 held fun _ => True := by
  intro t _
  have hrun : (Sizing.add held).run t =
      ((Sizing.check (t.more 1 held)).run t).bind fun u => some (t.states, u.2) := rfl
  rw [hrun, run_check]
  refine ⟨fun hkept => ⟨t.states, trivial, ?_⟩, fun hover => ?_⟩
  · rw [if_pos hkept]
    rfl
  · rw [if_neg (Nat.not_le_of_lt hover)]
    rfl

theorem fork : Costs Sizing.fork 0 4 fun _ => True := by
  intro t _
  have hrun : Sizing.fork.run t = (Sizing.check (t.more 0 4)).run t := rfl
  rw [hrun, run_check]
  refine ⟨fun hkept => ⟨(), trivial, if_pos hkept⟩, fun hover => ?_⟩
  exact if_neg (Nat.not_le_of_lt hover)

/-- Going on from a state that does not fork costs nothing. -/
theorem leave {forks : Bool} (h : forks = false) : Costs (Sizing.leave forks) 0 0 fun _ => True := by
  rw [h]
  exact pure trivial

theorem forM_add : ∀ bytes : List Nat,
    Costs (bytes.forM fun _ => do let _ ← Sizing.add 0) bytes.length 0 fun _ => True
  | [] => pure trivial
  | _ :: bytes => by
    have hone : Costs (do let _ ← Sizing.add 0) (1 + 0) (0 + 0) fun _ => True :=
      (add 0).bind fun _ _ => pure trivial
    rw [List.length_cons, Nat.add_comm]
    exact hone.bind fun _ _ => forM_add bytes

/-- A text has a state for each byte, and one if there is none. -/
theorem sizeOfBytes (bytes : List Nat) :
    Costs (Plain.sizeOfBytes bytes) (max 1 bytes.length) 0 (·.forks = false) := by
  cases bytes with
  | nil =>
    have h : Costs (do return ⟨← Sizing.add 0, false⟩) (1 + 0) (0 + 0)
        fun span : Span => span.forks = false := (add 0).bind fun _ _ => pure rfl
    exact h
  | cons b bytes =>
    have h : Costs (Plain.sizeOfBytes (b :: bytes)) (1 + (bytes.length + 0)) (0 + (0 + 0))
        (·.forks = false) := (add 0).bind fun _ _ => (forM_add bytes).bind fun _ _ => pure rfl
    rw [List.length_cons, Nat.max_eq_right (Nat.le_add_left 1 bytes.length), Nat.add_comm]
    exact h

end Costs

/-- The bytes of a character. -/
theorem length_utf8 (c : Char) : (ByteRange.utf8 c.toNat).length = c.utf8Size := by
  have hle : ∀ n : UInt32, c.val ≤ n ↔ c.toNat < n.toNat + 1 := fun n =>
    UInt32.le_iff_toNat_le.trans Nat.lt_succ_iff.symm
  have hone : c.val ≤ 0x7f ↔ c.toNat < 0x80 := hle 0x7f
  have htwo : c.val ≤ 0x7ff ↔ c.toNat < 0x800 := hle 0x7ff
  have hthree : c.val ≤ 0xffff ↔ c.toNat < 0x10000 := hle 0xffff
  change _ = if c.val ≤ 0x7f then 1 else if c.val ≤ 0x7ff then 2 else if c.val ≤ 0xffff then 3 else 4
  simp only [hone, htwo, hthree, ByteRange.utf8]
  split
  · rfl
  · split
    · rfl
    · split <;> rfl

theorem length_bytesOf (cs : List Char) : (bytesOf cs).length = Text.byteSize cs := by
  induction cs with
  | nil => rfl
  | cons c cs ih =>
    rw [bytesOf, List.flatMap_cons, List.length_append, length_utf8, Text.byteSize_cons]
    exact congrArg (c.utf8Size + ·) ih

theorem costs_size_ofChars (backwards : Bool) (cs : List Char) :
    Costs ((Node.ofChars cs).size backwards) (max 1 (Text.byteSize cs)) 0 (·.forks = false) := by
  rw [← length_bytesOf]
  cases cs with
  | nil => exact Costs.sizeOfBytes []
  | cons c cs =>
    have hsize : (Node.ofChars (c :: cs)).size backwards = sizeOfBytes (bytesOf (c :: cs)) := by
      rw [show Node.ofChars (c :: cs) = .text (c :: cs) from rfl, Node.size]
    rw [hsize]
    exact Costs.sizeOfBytes (bytesOf (c :: cs))

/-- A machine that is not anchored has four states around what it matches. -/
theorem costs_around {whole : Sizing Span} {states : Nat}
    (h : Costs whole states 0 (·.forks = false)) :
    Costs (do
      let _ ← Sizing.add 0
      let _ ← Sizing.add 0
      let _ ← Sizing.add 8
      Sizing.fork
      let whole ← whole
      let _ ← Sizing.add 0
      Sizing.leave whole.forks
      Sizing.leave true) (states + 4) 16 fun _ => True := by
  have hcount := (Costs.add 0).bind fun _ _ => (Costs.add 0).bind fun _ _ =>
    (Costs.add 8).bind fun _ _ => Costs.fork.bind fun _ _ => h.bind fun whole hforks =>
      (Costs.add 0).bind fun _ _ => (Costs.leave hforks).bind fun _ _ => Costs.fork
  have hstates : 1 + (1 + (1 + (0 + (states + (1 + (0 + 0)))))) = states + 4 := by omega
  rw [hstates] at hcount
  exact hcount

/-- The machine of a text has six states around those of its bytes, and four if it reads
backwards. -/
theorem costs_sizeOfMachine (backwards : Bool) (cs : List Char) :
    Costs (Node.sizeOfMachine backwards (Node.ofChars cs))
      (max 1 (Text.byteSize cs) + if backwards then 4 else 6) 16 fun _ => True := by
  have hfree : (Node.ofChars cs).isAnchored backwards = false := by cases cs <;> rfl
  cases backwards with
  | true =>
    have h := costs_around (costs_size_ofChars true cs)
    unfold Node.sizeOfMachine
    rw [hfree]
    exact h
  | false =>
    have hgroup : Costs ((Node.group 0 (Node.ofChars cs)).size false)
        (1 + (max 1 (Text.byteSize cs) + (1 + (0 + 0)))) (0 + (0 + (0 + (0 + 0))))
        (·.forks = false) := by
      rw [Node.size]
      exact (Costs.add 0).bind fun _ _ => (costs_size_ofChars false cs).bind fun _ hforks =>
        (Costs.add 0).bind fun _ _ => (Costs.leave hforks).bind fun _ _ => Costs.pure rfl
    have h := costs_around hgroup
    have hstates : 1 + (max 1 (Text.byteSize cs) + (1 + (0 + 0))) + 4 =
        max 1 (Text.byteSize cs) + 6 := by omega
    rw [hstates] at h
    unfold Node.sizeOfMachine
    rw [hfree]
    exact h

/-- A count from the start ends just if the limit is passed. -/
theorem Costs.isSome_run {α : Type} {count : Sizing α} {states held : Nat} {Q : α → Prop}
    (h : Costs count states held Q) :
    (count.run {}).isSome = decide (32 * states + held ≤ memoryLimit) := by
  obtain ⟨hkept, hover⟩ := h {} (Nat.zero_le _)
  have hmemory : (Tally.more {} states held).memory = 32 * states + held := by
    simp only [Tally.memory, Tally.more, Nat.zero_add]
  rw [hmemory] at hkept hover
  by_cases hle : 32 * states + held ≤ memoryLimit
  · obtain ⟨a, -, hrun⟩ := hkept hle
    rw [hrun, decide_eq_true hle, Option.isSome_some]
  · rw [hover (Nat.lt_of_not_le hle), decide_eq_false hle, Option.isSome_none]

/-- How long a text can be that is matched, in bytes: what stands around it in the machine that
reads forwards takes six states and sixteen bytes beside them. -/
def textLimit : Nat := (memoryLimit - 16) / 32 - 6

/-- **A text is not too large just if it is not too long.** -/
theorem fits_ofChars (cs : List Char) :
    (Node.ofChars cs).fits = decide (Text.byteSize cs ≤ textLimit) := by
  rw [Node.fits, (costs_sizeOfMachine false cs).isSome_run, (costs_sizeOfMachine true cs).isSome_run,
    ← Bool.decide_and]
  refine decide_eq_decide.mpr ?_
  simp only [Bool.false_eq_true, if_false, if_true, textLimit, memoryLimit]
  omega

example : textLimit = 327673 := rfl

end Plain

end CodeMarkup.Regex
