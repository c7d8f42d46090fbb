import CodeMarkup.Options
import CodeMarkup.Proofs.Markup.Spans

/-! # Laying out markup touches tabs and line breaks only

A `Layout` is applied to the markup, which it reads as characters; what it means is a matter of the
tree. `Node.laid` is the markup of a tree in which a tab is replaced if the text of its line has
nothing but tabs before it, a line break may be an element, and everything else stands as ever: the
tags of the spans, in their order, and the escaped text. Where no class has a closing mark, a tab or
a line break in it, laying out the markup comes to that (`Options.fixMarkup_render`).

Both are compared through the pieces of the markup. `layPieces` goes from piece to piece and knows
whether the line has had text other than tabs; `applyFor` takes the tabs and tags at the start of a
line at once (`exists_indent`), and every other character by itself. -/

namespace CodeMarkup.Markup

/-! ### What laid out markup ought to be -/

namespace Layout

/-- Whether there is nothing but tabs in the last line of a text. -/
def tabsOnly (before : String) : Bool :=
  (before.toList.reverse.takeWhile (· != '\n')).all (· == '\t')

/-- A character of the code in laid out markup, behind a text. -/
def layChar (l : Layout) (before : String) (c : Char) : List Char :=
  if c = '\n' then l.lineBreak
  else if c = '\t' ∧ tabsOnly before then (l.tab.getD "\t").toList
  else escapeChar c

/-- Characters of the code in laid out markup, behind a text. -/
def layText (l : Layout) (before : String) : List Char → List Char
  | [] => []
  | c :: cs => l.layChar before c ++ l.layText (before.push c) cs

end Layout

mutual

/-- A token in laid out markup, behind a text. -/
def Token.laid (l : Layout) (classPrefix : String) (before : String) : Token → String
  | .text s => String.ofList (l.layText before s.toList)
  | .node category embedded children =>
    inSpan (cssClass classPrefix category embedded) (Token.laidAll l classPrefix before children)

/-- A row of tokens in laid out markup, behind a text. -/
def Token.laidAll (l : Layout) (classPrefix : String) (before : String) : List Token → String
  | [] => ""
  | t :: ts => t.laid l classPrefix before ++ Token.laidAll l classPrefix (before ++ t.chars) ts

end

/-- The laid out markup of a node. -/
def Node.laid (l : Layout) (classPrefix : String) (n : Node) : String :=
  n.token.laid l classPrefix ""

mutual

/-- The classes of the spans of a token. -/
def Token.classes (classPrefix : String) : Token → List String
  | .text _ => []
  | .node category embedded children =>
    (cssClass classPrefix category embedded).toList ++ Token.classesOf classPrefix children

/-- The classes of the spans of a row of tokens. -/
def Token.classesOf (classPrefix : String) : List Token → List String
  | [] => []
  | t :: ts => t.classes classPrefix ++ Token.classesOf classPrefix ts

end

/-! ### Without a layout -/

/-- Where tabs stay and line breaks are none, a character stands as it does in markup. -/
theorem Layout.layChar_default (before : String) (c : Char) :
    layChar {} before c = escapeChar c := by
  unfold layChar
  split
  next h => exact h ▸ rfl
  next => split
          next h => exact h.1 ▸ rfl
          next => rfl

theorem Layout.layText_default (before : String) (cs : List Char) :
    layText {} before cs = cs.flatMap escapeChar := by
  induction cs generalizing before with
  | nil => rfl
  | cons c cs ih => rw [layText, layChar_default, ih, List.flatMap_cons]

mutual

theorem Token.laid_default (classPrefix : String) :
    ∀ (t : Token) (before : String), t.laid {} classPrefix before = t.render classPrefix
  | .text s, before => by
    rw [Token.laid, Token.render, Layout.layText_default, escape]
  | .node _ _ children, before => by
    rw [Token.laid, Token.render, Token.laidAll_default classPrefix children]

theorem Token.laidAll_default (classPrefix : String) : ∀ (ts : List Token) (before : String),
    Token.laidAll {} classPrefix before ts = Token.renderAll classPrefix ts
  | [], _ => rfl
  | t :: ts, before => by
    rw [Token.laidAll, Token.renderAll, Token.laid_default classPrefix t,
      Token.laidAll_default classPrefix ts]

end

/-- Without a layout the laid out markup is the markup. -/
theorem Node.laid_default (classPrefix : String) (n : Node) :
    n.laid {} classPrefix = n.render classPrefix :=
  n.token.laid_default classPrefix ""

/-! ### Writing pieces -/

namespace Piece

/-- A piece as it stands in markup. -/
def written : Piece → List Char
  | .char c => [c]
  | .tag inside => '<' :: inside ++ ['>']
  | .unclosed inside => '<' :: inside

/-- A piece that a layout reads as what it is: no character is an opening mark, and every tag has
something in it, but no closing mark, tab or line break. -/
def Even : Piece → Prop
  | .char c => c ≠ '<'
  | .tag inside => inside ≠ [] ∧ '>' ∉ inside ∧ '\t' ∉ inside ∧ '\n' ∉ inside
  | .unclosed _ => False

end Piece

/-- Pieces as they stand in markup. -/
def writePieces (ps : List Piece) : List Char := ps.flatMap Piece.written

theorem writePieces_append (ps qs : List Piece) :
    writePieces (ps ++ qs) = writePieces ps ++ writePieces qs :=
  List.flatMap_append

theorem writePieces_cons (p : Piece) (ps : List Piece) :
    writePieces (p :: ps) = p.written ++ writePieces ps :=
  List.flatMap_cons

theorem writePieces_chars : ∀ cs : List Char, writePieces (cs.map .char) = cs
  | [] => rfl
  | c :: cs => congrArg (c :: ·) (writePieces_chars cs)

theorem writePieces_inTags (className : Option String) {ps : List Piece} {markup : String}
    (h : writePieces ps = markup.toList) :
    writePieces (inTags className ps) = (inSpan className markup).toList := by
  cases className with
  | none => exact h
  | some name =>
    rw [inTags, inSpan, List.cons_append, writePieces_cons, writePieces_append, h]
    simp [startTag, endTag, Piece.written, writePieces, spanStart, spanEnd]

mutual

/-- The pieces of a token are what its markup is made of. -/
theorem Token.writePieces_pieces (classPrefix : String) :
    ∀ t : Token, writePieces (t.pieces classPrefix) = (t.render classPrefix).toList
  | .text _ => writePieces_chars _
  | .node _ _ children => writePieces_inTags _ (Token.writePieces_piecesOf classPrefix children)

theorem Token.writePieces_piecesOf (classPrefix : String) : ∀ ts : List Token,
    writePieces (Token.piecesOf classPrefix ts) = (Token.renderAll classPrefix ts).toList
  | [] => rfl
  | t :: ts => by
    rw [Token.piecesOf, writePieces_append, t.writePieces_pieces classPrefix,
      Token.writePieces_piecesOf classPrefix ts, Token.renderAll, String.toList_append]

end

theorem even_chars {cs : List Char} (h : '<' ∉ cs) : ∀ p ∈ cs.map Piece.char, p.Even := by
  intro p hp
  obtain ⟨c, hc, rfl⟩ := List.mem_map.mp hp
  exact fun heq => h (heq ▸ hc)

theorem even_inTags {className : Option String}
    (h : ∀ name ∈ className, ∀ c ∈ name.toList, c ∉ ['>', '\t', '\n']) {ps : List Piece}
    (hps : ∀ p ∈ ps, p.Even) : ∀ p ∈ inTags className ps, p.Even := by
  cases className with
  | none => exact hps
  | some name =>
    have hclear : ∀ c ∈ ['>', '\t', '\n'], c ∉ "span class=\"".toList ∧ c ∉ "\"".toList :=
      List.forall_mem_cons.mpr ⟨by decide, List.forall_mem_cons.mpr ⟨by decide,
        List.forall_mem_singleton.mpr (by decide)⟩⟩
    have hnot : ∀ c ∈ ['>', '\t', '\n'], c ∉ ("span class=\"" ++ name ++ "\"").toList := by
      intro c hc hm
      rw [String.toList_append, String.toList_append, List.mem_append, List.mem_append] at hm
      obtain (hm | hm) | hm := hm
      · exact (hclear c hc).1 hm
      · exact h name rfl c hm hc
      · exact (hclear c hc).2 hm
    have hstart : (startTag name).Even := by
      refine ⟨?_, hnot '>' (by decide), hnot '\t' (by decide), hnot '\n' (by decide)⟩
      simp
    have hend : endTag.Even := ⟨by decide, by decide, by decide, by decide⟩
    intro p hp
    obtain rfl | hp := List.mem_cons.mp hp
    · exact hstart
    · obtain hp | hp := List.mem_append.mp hp
      · exact hps p hp
      · exact List.mem_singleton.mp hp ▸ hend

mutual

theorem Token.even_pieces {classPrefix : String} : ∀ t : Token,
    (∀ name ∈ t.classes classPrefix, ∀ c ∈ name.toList, c ∉ ['>', '\t', '\n']) →
    ∀ p ∈ t.pieces classPrefix, p.Even
  | .text s, _ => even_chars fun h => not_mem_escape s '<' h List.mem_cons_self
  | .node category embedded children, h => by
    rw [Token.classes, List.forall_mem_append] at h
    exact even_inTags (fun name hname => h.1 name (Option.mem_toList.mpr hname))
      (Token.even_piecesOf children h.2)

theorem Token.even_piecesOf {classPrefix : String} : ∀ ts : List Token,
    (∀ name ∈ Token.classesOf classPrefix ts, ∀ c ∈ name.toList, c ∉ ['>', '\t', '\n']) →
    ∀ p ∈ Token.piecesOf classPrefix ts, p.Even
  | [], _ => fun _ hp => absurd hp List.not_mem_nil
  | t :: ts, h => by
    rw [Token.classesOf, List.forall_mem_append] at h
    exact List.forall_mem_append.mpr ⟨t.even_pieces h.1, Token.even_piecesOf ts h.2⟩

end

/-! ### Piece by piece -/

namespace Layout

/-- Pieces laid out; `lead` says whether the line has had nothing but tabs and tags so far. -/
def layPieces (l : Layout) : Bool → List Piece → List Char
  | _, [] => []
  | lead, .char c :: ps =>
    if c = '\n' then l.lineBreak ++ l.layPieces true ps
    else if lead = true ∧ c = '\t' then (l.tab.getD "\t").toList ++ l.layPieces true ps
    else c :: l.layPieces false ps
  | lead, .tag inside :: ps => '<' :: inside ++ ['>'] ++ l.layPieces lead ps
  | lead, .unclosed inside :: ps => '<' :: inside ++ l.layPieces lead ps

variable {l : Layout}

theorem indentChar_tab : l.indentChar '\t' = (l.tab.getD "\t").toList := by
  unfold indentChar
  cases l.tab with
  | none => rfl
  | some tab => rfl

theorem indentChar_of_ne {c : Char} (h : c ≠ '\t') : l.indentChar c = [c] := by
  unfold indentChar
  split
  next => exact absurd rfl h
  next => rfl

/-- What has no tabs in it stays. -/
theorem flatMap_indentChar {cs : List Char} (h : '\t' ∉ cs) : cs.flatMap l.indentChar = cs := by
  induction cs with
  | nil => rfl
  | cons c cs ih =>
    obtain ⟨hc, hcs⟩ := not_or.mp (fun hm => h (List.mem_cons.mpr hm))
    rw [List.flatMap_cons, indentChar_of_ne (Ne.symm hc), ih hcs, List.singleton_append]

/-- A tag ends at the first closing mark. -/
theorem tag?_append : ∀ {inside : List Char}, inside ≠ [] → '>' ∉ inside → ∀ cs,
    tag? (inside ++ '>' :: cs) = some (inside ++ ['>'], cs)
  | [], hne, _, _ => absurd rfl hne
  | c :: inside, _, h, cs => by
    have hne : ∀ x ∈ c :: inside, (x != '>') = true := fun x hx =>
      bne_iff_ne.mpr fun heq => h (heq ▸ hx)
    have hdrop : (c :: inside ++ '>' :: cs).dropWhile (· != '>') = '>' :: cs := by
      rw [List.dropWhile_append_of_pos hne]
      rfl
    have htake : (c :: inside ++ '>' :: cs).takeWhile (· != '>') = c :: inside := by
      rw [List.takeWhile_append_of_pos hne]
      simp
    unfold tag?
    split
    next heq =>
      rw [List.cons_append, List.cons.injEq] at heq
      exact absurd (heq.1 ▸ List.mem_cons_self) h
    next => simp only [hdrop, htake]

/-- **The indent of a line** is made of pieces: the tabs in it are replaced, and what is behind it
is laid out as no start of a line. -/
theorem exists_indent {ps : List Piece} {n : ℕ} (heven : ∀ p ∈ ps, p.Even)
    (hn : (writePieces ps).length ≤ n) : ∃ (run : List Char) (rest : List Piece),
      indent n (writePieces ps) = (run, writePieces rest) ∧ (∀ p ∈ rest, p.Even) ∧
      writePieces ps = run ++ writePieces rest ∧
      l.layPieces true ps = run.flatMap l.indentChar ++ l.layPieces false rest := by
  induction ps generalizing n with
  | nil =>
    refine ⟨[], [], ?_, heven, rfl, rfl⟩
    cases n with
    | zero => rfl
    | succ n => rfl
  | cons p ps ih =>
    obtain ⟨hp, hps⟩ := List.forall_mem_cons.mp heven
    rw [writePieces_cons, List.length_append] at hn
    cases p with
    | char c =>
      obtain ⟨n, rfl⟩ : ∃ m, n = m + 1 := Nat.exists_eq_add_one.mpr (by
        rw [Piece.written, List.length_singleton] at hn
        omega)
      -- a tab belongs to the indent, and any other character ends it
      by_cases htab : c = '\t'
      · subst htab
        rw [Piece.written, List.length_singleton] at hn
        obtain ⟨run, rest, hindent, hrest, hwritten, hlaid⟩ := ih hps (by omega : _ ≤ n)
        refine ⟨'\t' :: run, rest, ?_, hrest, ?_, ?_⟩
        · simp only [writePieces_cons, Piece.written, List.singleton_append, indent, hindent]
        · rw [writePieces_cons, hwritten]
          rfl
        · rw [layPieces, if_neg (by decide), if_pos ⟨rfl, rfl⟩, hlaid, List.flatMap_cons,
            indentChar_tab, List.append_assoc]
      · refine ⟨[], .char c :: ps, ?_, heven, rfl, ?_⟩
        · rw [writePieces_cons, Piece.written, List.singleton_append]
          unfold indent
          split
          next heq => cases heq
          next heq => exact absurd (List.cons.inj heq).1 htab
          next heq => exact absurd (List.cons.inj heq).1 hp
          next => rfl
        · rw [List.flatMap_nil, List.nil_append, layPieces, layPieces,
            if_neg (fun h => htab h.2 : ¬ (true = true ∧ c = '\t')),
            if_neg (fun h => htab h.2 : ¬ (false = true ∧ c = '\t'))]
    | tag inside =>
      obtain ⟨hne, hclose, htab, -⟩ := hp
      rw [Piece.written, List.length_append, List.length_cons] at hn
      obtain ⟨n, rfl⟩ : ∃ m, n = m + 1 := Nat.exists_eq_add_one.mpr (by omega)
      obtain ⟨run, rest, hindent, hrest, hwritten, hlaid⟩ := ih hps (by omega : _ ≤ n)
      have htag : '\t' ∉ '<' :: inside ++ ['>'] := by
        simp [htab]
      refine ⟨'<' :: inside ++ ['>'] ++ run, rest, ?_, hrest, ?_, ?_⟩
      · simp only [writePieces_cons, Piece.written, List.cons_append, List.append_assoc,
          List.nil_append, indent, tag?_append hne hclose, hindent]
      · rw [writePieces_cons, Piece.written, hwritten, List.append_assoc _ run]
      · rw [layPieces, hlaid, List.flatMap_append, flatMap_indentChar htag, List.append_assoc _ _
          (l.layPieces false rest)]
    | unclosed inside => exact hp.elim

/-- Behind the start of a line characters stay up to the next line break. -/
theorem applyFor_append {front : List Char} (h : '\n' ∉ front) (n : ℕ) (cs : List Char) :
    l.applyFor (front.length + n) false (front ++ cs) = front ++ l.applyFor n false cs := by
  induction front with
  | nil => rw [List.length_nil, Nat.zero_add, List.nil_append, List.nil_append]
  | cons c front ih =>
    obtain ⟨hc, hfront⟩ := not_or.mp (fun hm => h (List.mem_cons.mpr hm))
    rw [List.length_cons, Nat.add_right_comm, List.cons_append, applyFor]
    simp only [Bool.false_eq_true, if_false, if_neg (Ne.symm hc), ih hfront, List.cons_append]

/-- Where a line has no indent, its first piece is laid out as any other. -/
theorem applyFor_true {n : ℕ} {cs : List Char} (h : (indent cs.length cs).1 = []) :
    l.applyFor n true cs = l.applyFor n false cs := by
  cases n with
  | zero => rfl
  | succ n =>
    cases cs with
    | nil => rfl
    | cons c cs =>
      rw [List.length_cons] at h
      rw [applyFor, applyFor]
      simp only [if_true, Bool.false_eq_true, if_false]
      split
      next heq => exact absurd (congrArg Prod.fst heq ▸ h) (List.cons_ne_nil _ _)
      next => rfl

/-- The indent of a line is laid out at once. -/
theorem applyFor_indent {n : ℕ} {cs run rest : List Char} (hrun : run ≠ [])
    (h : indent cs.length cs = (run, rest)) :
    l.applyFor (n + 1) true cs = run.flatMap l.indentChar ++ l.applyFor n false rest := by
  cases cs with
  | nil =>
    exact absurd (congrArg Prod.fst h).symm hrun
  | cons c cs =>
    rw [List.length_cons] at h
    rw [applyFor]
    simp only [if_true, h]
    cases run with
    | nil => exact absurd rfl hrun
    | cons i run => rfl

/-- Behind the start of a line a piece is laid out by itself, if the pieces after it are. -/
theorem applyFor_false {n : ℕ} (ih : ∀ m < n, ∀ {lead : Bool} {ps : List Piece},
      (∀ p ∈ ps, p.Even) → (writePieces ps).length ≤ m →
      l.applyFor m lead (writePieces ps) = l.layPieces lead ps)
    {ps : List Piece} (heven : ∀ p ∈ ps, p.Even) (hn : (writePieces ps).length ≤ n) :
    l.applyFor n false (writePieces ps) = l.layPieces false ps := by
  cases ps with
  | nil =>
    cases n with
    | zero => rfl
    | succ n => rfl
  | cons p ps =>
    obtain ⟨hp, hps⟩ := List.forall_mem_cons.mp heven
    rw [writePieces_cons, List.length_append] at hn
    rw [writePieces_cons]
    cases p with
    | char c =>
      rw [Piece.written, List.length_singleton] at hn
      obtain ⟨m, rfl⟩ : ∃ m, n = m + 1 := Nat.exists_eq_add_one.mpr (by omega)
      have hm : ∀ lead, l.applyFor m lead (writePieces ps) = l.layPieces lead ps :=
        fun _ => ih m (Nat.lt_succ_self m) hps (by omega)
      rw [Piece.written, List.singleton_append, applyFor, layPieces, hm, hm]
      simp only [Bool.false_eq_true, if_false, false_and]
    | tag inside =>
      obtain ⟨-, -, -, hbreak⟩ := hp
      have hfront : '\n' ∉ (Piece.tag inside).written := by
        simp [Piece.written, hbreak]
      obtain ⟨m, rfl⟩ := Nat.exists_eq_add_of_le (Nat.le_of_add_right_le hn)
      rw [applyFor_append hfront, ih m (by simp [Piece.written]) hps (by omega), layPieces]
      rfl
    | unclosed inside => exact hp.elim

/-- **Markup is laid out piece by piece**, though the indent of a line is read at once. -/
theorem applyFor_writePieces {n : ℕ} {lead : Bool} {ps : List Piece} (heven : ∀ p ∈ ps, p.Even)
    (hn : (writePieces ps).length ≤ n) :
    l.applyFor n lead (writePieces ps) = l.layPieces lead ps := by
  induction n using Nat.strong_induction_on generalizing lead ps with
  | _ n ih =>
    cases lead with
    | false => exact applyFor_false ih heven hn
    | true =>
      obtain ⟨run, rest, hindent, hrest, hwritten, hlaid⟩ :=
        exists_indent heven (le_refl (writePieces ps).length)
      have hlen : (writePieces ps).length = run.length + (writePieces rest).length := by
        rw [hwritten, List.length_append]
      by_cases hrun : run = []
      · -- The line has no indent: nothing has been read yet.
        subst hrun
        rw [applyFor_true (congrArg Prod.fst hindent), hlaid, List.flatMap_nil, List.nil_append,
          hwritten, List.nil_append, applyFor_false ih hrest (by omega)]
      · have hpos : 0 < run.length := List.length_pos_iff.mpr hrun
        obtain ⟨m, rfl⟩ : ∃ m, n = m + 1 := Nat.exists_eq_add_one.mpr (by omega)
        rw [applyFor_indent hrun hindent, hlaid, ih m (by omega) hrest (by omega)]

/-! ### The pieces of a tree -/

theorem tabsOnly_push (before : String) (c : Char) :
    tabsOnly (before.push c) = (c == '\n' || c == '\t' && tabsOnly before) := by
  unfold tabsOnly
  rw [String.toList_push, List.reverse_append, List.reverse_singleton, List.singleton_append,
    List.takeWhile_cons]
  by_cases hbreak : c = '\n'
  · simp [hbreak]
  · simp [hbreak]

/-- Text with neither tabs nor line breaks in it stays, and ends the indent of its line. -/
theorem layPieces_chars {cs : List Char} (hne : cs ≠ []) (htab : '\t' ∉ cs) (hbreak : '\n' ∉ cs)
    (lead : Bool) (ps : List Piece) :
    l.layPieces lead (cs.map .char ++ ps) = cs ++ l.layPieces false ps := by
  induction cs generalizing lead with
  | nil => exact absurd rfl hne
  | cons c cs ih =>
    obtain ⟨hc, hcs⟩ := not_or.mp (fun hm => htab (List.mem_cons.mpr hm))
    obtain ⟨hb, hbs⟩ := not_or.mp (fun hm => hbreak (List.mem_cons.mpr hm))
    rw [List.map_cons, List.cons_append, layPieces, if_neg (Ne.symm hb),
      if_neg (fun h => Ne.symm hc h.2 : ¬ (lead = true ∧ c = '\t')), List.cons_append]
    cases cs with
    | nil => rfl
    | cons d ds => rw [ih (List.cons_ne_nil d ds) hcs hbs]

/-- No entity has a tab or a line break in it. -/
theorem layPieces_escapeChar (before : String) (c : Char) (ps : List Piece) :
    l.layPieces (tabsOnly before) ((escapeChar c).map .char ++ ps) =
      l.layChar before c ++ l.layPieces (tabsOnly (before.push c)) ps := by
  rw [tabsOnly_push, layChar]
  by_cases hbreak : c = '\n'
  · subst hbreak
    rfl
  · by_cases htab : c = '\t'
    · subst htab
      cases tabsOnly before with
      | true => rfl
      | false => rfl
    · have hlead : (c == '\n' || c == '\t' && tabsOnly before) = false := by
        simp [hbreak, htab]
      rw [if_neg hbreak, if_neg (fun h => htab h.1), hlead]
      by_cases hc : c ∈ special
      · unfold special at hc
        fin_cases hc <;>
          exact layPieces_chars (List.cons_ne_nil _ _) (by decide) (by decide) _ ps
      · rw [escapeChar_of_not_mem hc]
        exact layPieces_chars (List.cons_ne_nil _ _)
          (fun h => htab (List.mem_singleton.mp h).symm)
          (fun h => hbreak (List.mem_singleton.mp h).symm) _ ps

theorem layPieces_escape (before : String) (cs : List Char) (ps : List Piece) :
    l.layPieces (tabsOnly before) ((cs.flatMap escapeChar).map .char ++ ps) =
      l.layText before cs ++ l.layPieces (tabsOnly (before ++ String.ofList cs)) ps := by
  induction cs generalizing before with
  | nil => rw [String.ofList_nil, String.append_empty]; rfl
  | cons c cs ih =>
    have hbefore : before ++ String.ofList (c :: cs) = before.push c ++ String.ofList cs := by
      apply String.toList_inj.mp
      simp
    rw [List.flatMap_cons, List.map_append, List.append_assoc, layPieces_escapeChar, ih, layText,
      hbefore, List.append_assoc]

/-- The tags of a span stand around what is laid out in it. -/
theorem layPieces_inTags {className : Option String} {before after : String} {ps : List Piece}
    {markup : String} (h : ∀ qs, l.layPieces (tabsOnly before) (ps ++ qs) =
      markup.toList ++ l.layPieces (tabsOnly after) qs) (qs : List Piece) :
    l.layPieces (tabsOnly before) (inTags className ps ++ qs) =
      (inSpan className markup).toList ++ l.layPieces (tabsOnly after) qs := by
  cases className with
  | none => exact h qs
  | some name =>
    rw [inTags, inSpan, List.cons_append, List.cons_append, List.append_assoc, startTag, layPieces,
      h, List.singleton_append, endTag, layPieces]
    simp [spanStart, spanEnd]

end Layout

mutual

theorem Token.layPieces_pieces (l : Layout) (classPrefix : String) :
    ∀ (t : Token) (before : String) (ps : List Piece),
    l.layPieces (Layout.tabsOnly before) (t.pieces classPrefix ++ ps) =
      (t.laid l classPrefix before).toList ++
        l.layPieces (Layout.tabsOnly (before ++ t.chars)) ps
  | .text s, before, ps => by
    rw [Token.pieces, Token.laid, Token.chars, escape, String.toList_ofList,
      Layout.layPieces_escape, String.toList_ofList, String.ofList_toList]
  | .node _ _ children, before, ps =>
    Layout.layPieces_inTags (Token.layPieces_piecesOf l classPrefix children before) ps

theorem Token.layPieces_piecesOf (l : Layout) (classPrefix : String) :
    ∀ (ts : List Token) (before : String) (ps : List Piece),
    l.layPieces (Layout.tabsOnly before) (Token.piecesOf classPrefix ts ++ ps) =
      (Token.laidAll l classPrefix before ts).toList ++
        l.layPieces (Layout.tabsOnly (before ++ Token.charsOf ts)) ps
  | [], before, ps => by
    rw [Token.piecesOf, Token.laidAll, Token.charsOf, String.append_empty]
    rfl
  | t :: ts, before, ps => by
    rw [Token.piecesOf, Token.laidAll, Token.charsOf, List.append_assoc,
      t.layPieces_pieces l classPrefix, Token.layPieces_piecesOf l classPrefix ts,
      String.toList_append, String.append_assoc, List.append_assoc]

end

/-! ### Fixing markup -/

/-- Laying out the markup of a tree comes to the laid out markup of the tree. -/
theorem Layout.apply_render (l : Layout) {classPrefix : String} {n : Node}
    (h : ∀ name ∈ n.token.classes classPrefix, ∀ c ∈ name.toList, c ∉ ['>', '\t', '\n']) :
    l.apply (n.render classPrefix) = n.laid l classPrefix := by
  have hlaid := n.token.layPieces_pieces l classPrefix "" []
  rw [List.append_nil, Layout.layPieces, List.append_nil] at hlaid
  have hwritten := n.token.writePieces_pieces classPrefix
  rw [Layout.apply, Node.render, ← hwritten,
    Layout.applyFor_writePieces (n.token.even_pieces h) le_rfl]
  exact (congrArg String.ofList hlaid).trans (String.ofList_toList)

end CodeMarkup.Markup

namespace CodeMarkup

open Markup

/-- **Fixing markup touches tabs and line breaks only.** If no class of a tree has a closing mark, a
tab or a line break in it, its markup is fixed to the same tags around the same text, save that a
tab with nothing but tabs before it in the text of its line is replaced, if there is something to
replace it by, and that line breaks are elements, if they should be. With neither option any markup
stays. -/
theorem Options.fixMarkup_render (o : Options) (classPrefix : String) (n : Node)
    (h : ∀ name ∈ n.token.classes classPrefix, ∀ c ∈ name.toList, c ∉ ['>', '\t', '\n']) :
    o.fixMarkup (n.render classPrefix) = n.laid o.layout classPrefix ∧
      (o.tabReplace = none → o.useLineBreaksAsElement = false →
        ∀ markup, o.fixMarkup markup = markup) := by
  have hnone : o.tabReplace = none → o.useLineBreaksAsElement = false →
      ∀ markup, o.fixMarkup markup = markup := by
    intro htab hbreaks markup
    rw [Options.fixMarkup, htab, hbreaks]
    rfl
  refine ⟨?_, hnone⟩
  by_cases hopt : o.tabReplace = none ∧ o.useLineBreaksAsElement = false
  · have hlayout : o.layout = {} := by rw [Options.layout, hopt.1, hopt.2]
    rw [hnone hopt.1 hopt.2, hlayout, Node.laid_default]
  · have hset : (o.tabReplace.isNone && !o.useLineBreaksAsElement) = false := by
      rw [Bool.and_eq_false_iff]
      by_cases htab : o.tabReplace = none
      · exact .inr (by simpa using fun hb => hopt ⟨htab, hb⟩)
      · exact .inl (by simpa [Option.isSome_iff_ne_none] using htab)
    rw [Options.fixMarkup, hset, if_neg Bool.false_ne_true, Layout.apply_render o.layout h]

/-- Lines with tabs at their start and inside, spans that begin in an indent and run over the end of a
line, and an embedded language whose root has no text before its tab. -/
def indented : Node where
  category := none
  embedded := false
  children := [.text "\t", .node (some "a") false [.text "\t<x\t\n", .node (some "b") false []],
    .node (some "ini") true [.text "\t"], .text "\ty\tz\n\n \t"]

/-- The tabs at the start of the lines are replaced by the mark of a tag, which stands as given. -/
theorem Options.fixMarkup_render_indented :
    ({ tabReplace := some "<>", useLineBreaksAsElement := true } : Options).fixMarkup
        (indented.render "hljs-") =
      "<><span class=\"hljs-a\"><>&lt;x\t<br><span class=\"hljs-b\"></span></span>" ++
        "<span class=\"ini\"><></span><>y\tz<br><br> \t" := by
  have hclasses : (indented.token.classes "hljs-").all fun name =>
      name.toList.all (· ∉ ['>', '\t', '\n']) := by decide +kernel
  have hclear : ∀ name ∈ indented.token.classes "hljs-", ∀ c ∈ name.toList, c ∉ ['>', '\t', '\n'] :=
    fun name hname c hc =>
      of_decide_eq_true (List.all_eq_true.mp (List.all_eq_true.mp hclasses name hname) c hc)
  rw [(fixMarkup_render _ "hljs-" indented hclear).1]
  decide +kernel

end CodeMarkup
