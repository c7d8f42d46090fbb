import CodeMarkup.Proofs.Language.Numbering
import CodeMarkup.Proofs.Language.Words
import CodeMarkup.Proofs.Text.Barred

/-! # What keyword tables say of words

A table of keywords is made of words that have been written in small letters, if case does not
matter, and of which the weight has then been split off; of several entries for a word the one that
was declared last comes first. Here the table is described by the words as they were declared:
`Keywords.last?` is the last declaration of a word over all categories, and `Keywords.weightOf` what
a declared word counts for, and looking a word up gives just these
(`KeywordTable.find?_compile`). -/

namespace CodeMarkup

/-! ### Declared words -/

namespace Keywords

/-- The word that is declared: what stands before the first bar. -/
def nameOf (declared : String) : String :=
  String.ofList (declared.toList.takeWhile (· != '|'))

/-- What a declared word counts for: the number behind the first bar; without a bar nothing if it is
a common word, else one. -/
def weightOf (declared : String) : Nat :=
  match declared.toList.dropWhile (· != '|') with
  | [] => if common.contains (Text.lowercase declared) then 0 else 1
  | _ :: weight => (KeywordTable.number? (Text.trim (String.ofList weight)).toList).getD 0

/-- The last declaration of a word, with its category. -/
def last? (k : Keywords) (foldCase : Bool) (word : String) : Option (String × String) :=
  (KeywordTable.declarations k).reverse.find? fun (_, declared) =>
    KeywordTable.folded foldCase word == KeywordTable.folded foldCase (nameOf declared)

end Keywords

namespace KeywordTable

open Keywords

variable {foldCase : Bool}

/-! ### Weights -/

/-- A number is written with digits, perhaps behind a plus sign. -/
theorem isUnmoved_of_number? {cs : List Char} {n : Nat} (h : number? cs = some n) :
    ∀ c ∈ cs, Text.IsUnmoved c := by
  have hdigits : ∀ ds : List Char, ¬ (ds.isEmpty || !ds.all Char.isDigit) = true →
      ∀ c ∈ ds, Text.IsUnmoved c := by
    intro ds hds c hc
    simp only [Bool.or_eq_true, Bool.not_eq_true', not_or, Bool.not_eq_false] at hds
    exact Text.isUnmoved_of_isDigit (List.all_eq_true.mp hds.2 c hc)
  unfold number? at h
  split at h
  · next ds =>
    by_cases hds : (ds.isEmpty || !ds.all Char.isDigit) = true
    · rw [if_pos hds] at h
      cases h
    · exact List.forall_mem_cons.mpr ⟨by decide +kernel, hdigits ds hds⟩
  · by_cases hds : (cs.isEmpty || !cs.all Char.isDigit) = true
    · rw [if_pos hds] at h
      cases h
    · exact hdigits cs hds

/-- What has been trimmed off is blank. -/
theorem isUnmoved_of_trim {cs : List Char}
    (h : ∀ c ∈ (Text.trim (String.ofList cs)).toList, Text.IsUnmoved c) :
    ∀ c ∈ cs, Text.IsUnmoved c := by
  rw [Text.trim, String.toList_ofList, String.toList_ofList] at h
  have hdrop : ∀ ds : List Char, (∀ c ∈ ds.dropWhile Text.isBlank, Text.IsUnmoved c) →
      ∀ c ∈ ds, Text.IsUnmoved c := by
    intro ds hds c hc
    rw [← List.takeWhile_append_dropWhile (p := Text.isBlank) (l := ds), List.mem_append] at hc
    rcases hc with hc | hc
    · exact Text.isUnmoved_of_isBlank (List.mem_takeWhile_imp hc)
    · exact hds c hc
  refine hdrop cs fun c hc => ?_
  refine hdrop _ (fun d hd => ?_) c (List.mem_reverse.mpr hc)
  exact h d (List.mem_reverse.mpr hd)

/-- A weight stays as it is when it is written in small letters. -/
theorem lowercaseAfter_of_number? {before cs : List Char} {n : Nat}
    (h : number? (Text.trim (String.ofList (Text.lowercaseAfter before cs))).toList = some n) :
    Text.lowercaseAfter before cs = cs :=
  Text.lowercaseAfter_of_unmoved (isUnmoved_of_trim (isUnmoved_of_number? h))

/-! ### Entries -/

theorem splitBar_append_bar {cs : List Char} (h : '|' ∉ cs) (weight : List Char) :
    splitBar (cs ++ '|' :: weight) = (cs, some weight) := by
  induction cs with
  | nil => rfl
  | cons c cs ih =>
    obtain ⟨hc, hcs⟩ := not_or.mp (mt List.mem_cons.mpr h)
    rw [List.cons_append, splitBar, ih hcs]
    exact fun he => hc he.symm

/-- A declared word has no bar, or is cut at its first one. -/
theorem bar_cases (declared : String) :
    ('|' ∉ declared.toList ∧ nameOf declared = declared ∧
      weightOf declared = if common.contains (Text.lowercase declared) then 0 else 1) ∨
    ∃ weight, '|' ∉ (nameOf declared).toList ∧
      declared.toList = (nameOf declared).toList ++ '|' :: weight ∧
      weightOf declared = (number? (Text.trim (String.ofList weight)).toList).getD 0 := by
  have hname : (nameOf declared).toList = declared.toList.takeWhile (· != '|') :=
    String.toList_ofList
  have hbar : '|' ∉ (nameOf declared).toList := by
    rw [hname]
    intro hm
    exact absurd (List.mem_takeWhile_imp hm) (by decide)
  have hcut : (nameOf declared).toList ++ declared.toList.dropWhile (· != '|') =
      declared.toList := by
    rw [hname, List.takeWhile_append_dropWhile]
  unfold weightOf
  cases hdrop : declared.toList.dropWhile (· != '|') with
  | nil =>
    rw [hdrop, List.append_nil] at hcut
    exact .inl ⟨hcut ▸ hbar, String.toList_inj.mp hcut, rfl⟩
  | cons c weight =>
    have hc : c = '|' := by
      have hhead := List.head_dropWhile_not (· != '|') (hdrop ▸ List.cons_ne_nil c weight)
      simpa [hdrop] using hhead
    subst hc
    exact .inr ⟨weight, hbar, by rw [← hdrop, hcut], rfl⟩

theorem lowercase_folded (word : String) :
    Text.lowercase (folded foldCase word) = Text.lowercase word := by
  cases foldCase with
  | false => rfl
  | true => exact Text.lowercase_lowercase word

/-- **The entry of a declared word** is that of its name and of its weight as they were declared. -/
theorem entry_eq {category declared : String} {e : String × KeywordEntry}
    (h : entry foldCase category declared = .ok e) :
    e = (folded foldCase (nameOf declared), ⟨category, weightOf declared⟩) := by
  unfold entry at h
  rcases bar_cases declared with ⟨hbar, hname, hweight⟩ | ⟨weight, hbar, hcut, hweight⟩
  · have hfolded : '|' ∉ (folded foldCase declared).toList := by
      cases foldCase with
      | false => exact hbar
      | true =>
        rw [folded, if_pos rfl, Text.lowercase, String.toList_ofList]
        exact Text.bar_not_mem_lowercaseAfter hbar
    rw [splitBar_of_not_mem hfolded] at h
    simp only [Option.map_none, relevance?, String.ofList_toList, lowercase_folded] at h
    rw [hname, hweight]
    exact (Except.ok.inj h).symm
  · -- the cut of the folded word, whose weight is a number only if folding has left it alone
    have hsplit : ∃ weight', splitBar (folded foldCase declared).toList =
          ((folded foldCase (nameOf declared)).toList, some weight') ∧
        ∀ n, number? (Text.trim (String.ofList weight')).toList = some n → weight' = weight := by
      cases foldCase with
      | false =>
        refine ⟨weight, ?_, fun _ _ => rfl⟩
        rw [folded, if_neg Bool.false_ne_true, hcut, splitBar_append_bar hbar]
        rfl
      | true =>
        obtain ⟨behind, hlower⟩ := Text.lowercaseAfter_append_bar (nameOf declared).toList weight []
        refine ⟨Text.lowercaseAfter behind weight, ?_, fun n => lowercaseAfter_of_number?⟩
        simp only [folded, if_pos, Text.lowercase, String.toList_ofList, hcut, hlower]
        exact splitBar_append_bar (Text.bar_not_mem_lowercaseAfter hbar) _
    obtain ⟨weight', hsplit, hsame⟩ := hsplit
    rw [hsplit] at h
    simp only [Option.map_some, relevance?, String.ofList_toList] at h
    cases hnumber : number? (Text.trim (String.ofList weight')).toList with
    | none =>
      rw [hnumber] at h
      cases h
    | some n =>
      rw [hnumber] at h
      rw [hweight, ← hsame n hnumber, hnumber]
      exact (Except.ok.inj h).symm

/-! ### Tables -/

theorem entries_eq : ∀ {ds : List (String × String)} {es : List (String × KeywordEntry)},
    ds.mapM (fun d : String × String => entry foldCase d.1 d.2) = .ok es →
    es = ds.map fun d => (folded foldCase (nameOf d.2), ⟨d.1, weightOf d.2⟩)
  | [], es, h => (Except.ok.inj h).symm
  | d :: ds, es, h => by
    rw [List.mapM_cons] at h
    obtain ⟨e, he, h⟩ := Language.of_bind_ok h
    obtain ⟨es', hes, h⟩ := Language.of_bind_ok h
    rw [← Except.ok.inj h, entry_eq he, entries_eq hes, List.map_cons]

/-- The first entry of a word is that of the first member that has it. -/
theorem lookup_map {α : Type} (key : α → String) (value : α → KeywordEntry) (word : String)
    (xs : List α) : (xs.map fun x => (key x, value x)).lookup word =
      (xs.find? fun x => word == key x).map value := by
  induction xs with
  | nil => rfl
  | cons x xs ih =>
    rw [List.map_cons, List.lookup_cons, List.find?_cons]
    cases hx : word == key x with
    | true => rfl
    | false => exact ih

/-- **A table has the last declaration of a word**, over all categories, with the weight that was
declared. -/
theorem find?_compile {k : Keywords} {t : KeywordTable} (h : compile foldCase k = .ok t)
    (word : String) : t.find? foldCase word =
      (k.last? foldCase word).map fun (category, declared) => ⟨category, weightOf declared⟩ := by
  unfold compile at h
  obtain ⟨es, hes, h⟩ := Language.of_bind_ok h
  rw [find?, ← Except.ok.inj h, entries_eq hes, ← List.map_reverse]
  exact lookup_map (fun d : String × String => folded foldCase (nameOf d.2)) _ _ _

end KeywordTable

end CodeMarkup
