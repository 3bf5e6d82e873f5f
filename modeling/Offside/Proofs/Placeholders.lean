import Offside.Proofs.RoundTrip
import Offside.Proofs.Templates
import Offside.Proofs.Run.Laws

/-!
# Names in placeholders

The grammar and the format strings each have their own idea of a name.  Most names are names for
both.  A name with a character that is neither alphabetic nor numeric, such as the middle dot, a
combining mark or a connector other than the underscore, can be assigned and used, but a placeholder
with it is refused.

* characters in two tables: `Text.Ranges.not_contains_of_apart`;
* a template that is one placeholder: `Template.fill_placeholder`;
* names that placeholders take: `Template.isKey_of_isName`;
* **which names a placeholder stands for**: `Eval.placeholder_evaluates_iff`.
-/

namespace Offside

/-! ### Tables that are apart -/

namespace Text.Ranges

/-- A code point that is found is in some range of the table. -/
theorem exists_of_holds {table : Ranges} {n : Nat} (h : table.holds n = true) :
    ∃ r ∈ table, r.1 ≤ n ∧ n ≤ r.2 := by
  induction table with
  | nil => cases h
  | cons r rest ih =>
    obtain ⟨lo, hi⟩ := r
    rw [holds] at h
    split at h
    · next hn => exact ⟨(lo, hi), List.mem_cons_self .., of_decide_eq_true h, hn⟩
    · obtain ⟨r, hr, hn⟩ := ih h
      exact ⟨r, List.mem_cons_of_mem _ hr, hn⟩

/-- No range of the one table meets a range of the other. -/
def apart (a b : Ranges) : Bool :=
  a.all fun r => b.all fun s => decide (r.2 < s.1) || decide (s.2 < r.1)

theorem not_contains_of_apart {a b : Ranges} {c : Char} (h : a.apart b = true)
    (hc : a.contains c = true) : b.contains c = false := by
  rw [Bool.eq_false_iff]
  intro hb
  obtain ⟨r, hr, hrc⟩ := exists_of_holds hc
  obtain ⟨s, hs, hsc⟩ := exists_of_holds hb
  have hapart := List.all_eq_true.mp (List.all_eq_true.mp h r hr) s hs
  simp only [Bool.or_eq_true, decide_eq_true_eq] at hapart
  omega

end Text.Ranges

/-! ### Templates of one placeholder -/

namespace Template

variable (lookup : String → Option String)

/-- **A template that is one placeholder** is filled with what its name stands for. -/
theorem fill_placeholder {t : List Char} (ht : Braceless t) :
    fill lookup (String.ofList ('\x7b' :: (t ++ ['\x7d']))) =
      (resolve lookup t).map String.ofList := by
  unfold fill
  rw [String.toList_ofList, fillFrom_placeholder ht]
  cases resolve lookup t with
  | error problem => rfl
  | ok text =>
    rw [fillFrom]
    exact congrArg (fun u => Except.ok (String.ofList u)) (List.append_nil text)

/-! ### Names for the grammar and for placeholders -/

theorem isKeyInner_iff {c : Char} : isKeyInner c = true ↔
    c = '_' ∨ Text.isAlphabetic c = true ∨ Text.isNumeric c = true := by
  simp [isKeyInner, or_assoc]

/-- A letter that starts a name and is not alphabetic is not numeric either. -/
theorem isKeyStart_of_isKeyInner {c : Char} (hc : nameHead.contains c = true)
    (h : isKeyInner c = true) : isKeyStart c = true := by
  have hother : Text.otherInitialRanges.apart Text.numberRanges = true := by decide +kernel
  have hnewer : Text.newerLetterRanges.apart Text.numberRanges = true := by decide +kernel
  simp only [nameHead, CharClass.contains, Text.isNameStart, Bool.or_eq_true, Bool.and_eq_true,
    beq_iff_eq] at hc
  simp only [isKeyInner, isKeyStart, Bool.or_eq_true] at h ⊢
  rcases h with h | hnumeric
  · exact h
  · rcases hc with ((⟨hletter, -⟩ | hc) | hc) | rfl
    · exact Or.inr (by simp [Text.isAlphabetic, hletter])
    · exact absurd hnumeric (by simp [Text.isNumeric, Text.Ranges.not_contains_of_apart hother hc])
    · exact absurd hnumeric (by simp [Text.isNumeric, Text.Ranges.not_contains_of_apart hnewer hc])
    · exact Or.inl (beq_self_eq_true _)

/-- **Names that placeholders take:** all of their characters count for placeholders. -/
theorem isKey_of_isName {t : List Char} (h : IsName t) : isKey t = t.all isKeyInner := by
  obtain ⟨⟨c, cs, rfl, hc, -⟩, -⟩ := h
  rw [isKey, List.all_cons]
  congr 1
  rw [Bool.eq_iff_iff]
  constructor
  · intro hstart
    rw [isKeyInner, Bool.or_eq_true]
    exact Or.inl hstart
  · exact isKeyStart_of_isKeyInner hc

/-- Names have no braces. -/
theorem braceless_of_isName {t : List Char} (h : IsName t) : Braceless t := by
  intro c hc
  have hinner := h.inner c hc
  constructor
  · rintro rfl
    exact absurd hinner (by decide +kernel)
  · rintro rfl
    exact absurd hinner (by decide +kernel)

/-- What a placeholder with a name is filled with, or what is wrong with it. -/
theorem resolve_of_isName {t : List Char} (h : IsName t) {text : String}
    (htext : lookup (String.ofList t) = some text) :
    resolve lookup t =
      if t.all isKeyInner then .ok text.toList else .error (.badKey (String.ofList t)) := by
  have hne : t ≠ [] := by
    obtain ⟨⟨c, cs, rfl, -⟩, -⟩ := h
    exact List.cons_ne_nil c cs
  unfold resolve
  simp only [hne, if_false, isKey_of_isName h, htext]

end Template

/-! ### Placeholders of variables -/

/-- The format string whose content is the name between braces. -/
def StrLit.placeholder (name : String) (long : Bool) : StrLit :=
  ⟨"\x7b" ++ name ++ "\x7d", .double, long⟩

theorem StrLit.eval_placeholder {s : Scope} {name : String} {v : Value}
    (hname : IsName name.toList) (hv : s.get? name = some (.value v)) (long : Bool) :
    (StrLit.placeholder name long).eval s =
      if name.toList.all Template.isKeyInner then .ok v.display
      else .error (.formatSyntax ("invalid placeholder '\x7b" ++ name ++ "\x7d'")
        (StrLit.placeholder name long).sourceForm) := by
  have hcontent : (StrLit.placeholder name long).content =
      String.ofList ('\x7b' :: (name.toList ++ ['\x7d'])) := by
    apply String.toList_injective
    simp [StrLit.placeholder]
  have hlookup : Template.shown s.valueOf? (String.ofList name.toList) = some v.display := by
    simp [Template.shown, Scope.valueOf?, hv]
  have htemplate : (StrLit.placeholder name long).isTemplate = true := rfl
  unfold StrLit.eval Template.substitute
  rw [if_pos htemplate, hcontent, Template.fill_placeholder _ (Template.braceless_of_isName hname),
    Template.resolve_of_isName _ hname hlookup]
  by_cases hinner : name.toList.all Template.isKeyInner = true
  · rw [if_pos hinner, if_pos hinner]
    exact congrArg Except.ok String.ofList_toList
  · rw [if_neg hinner, if_neg hinner, String.ofList_toList]
    rfl

namespace Eval

/-- **Which names a placeholder stands for.**  For a name of the grammar that has a value, the format
string with this name between braces evaluates to the value as it is displayed if and only if all
characters of the name are underscores, alphabetic or numeric.  Otherwise it fails, though the name
itself can be used. -/
theorem placeholder_evaluates_iff (g : Globals) (invoke : Invoke) {name : String} {v : Value}
    {ls : Locals} (hname : Rule.name.spells name.toList = true)
    (hv : Scope.get? ⟨g, ls⟩ name = some (.value v)) (long : Bool) (span : Span) (m : Machine) :
    (expr g invoke (.string (.placeholder name long) span) ls m = .done (.str v.display) ls m ↔
      ∀ c ∈ name.toList, c = '_' ∨ Text.isAlphabetic c = true ∨ Text.isNumeric c = true) ∧
    ((∃ c ∈ name.toList, c ≠ '_' ∧ Text.isAlphabetic c = false ∧ Text.isNumeric c = false) →
      expr g invoke (.string (.placeholder name long) span) ls m =
        .stopped (.failed ⟨.formatSyntax ("invalid placeholder '\x7b" ++ name ++ "\x7d'")
          (StrLit.placeholder name long).sourceForm, some span⟩) m) ∧
    expr g invoke (.name ⟨name, span⟩ span) ls m = .done v ls m := by
  have heval := StrLit.eval_placeholder
    (Ident.isName_of_wellFormed (x := ⟨name, span⟩) hname) hv long
  have hall : name.toList.all Template.isKeyInner = true ↔
      ∀ c ∈ name.toList, c = '_' ∨ Text.isAlphabetic c = true ∨ Text.isNumeric c = true := by
    simp only [List.all_eq_true, Template.isKeyInner_iff]
  refine ⟨⟨fun h => hall.mp ?_, fun h => ?_⟩, fun ⟨c, hc, hnot⟩ => ?_, ?_⟩
  · obtain ⟨text, htext, -⟩ := string_eq_done_iff.mp h
    refine Decidable.byContradiction fun hno => ?_
    rw [if_neg hno] at heval
    cases heval.symm.trans htext
  · rw [if_pos (hall.mpr h)] at heval
    exact string_eq_done_iff.mpr ⟨_, heval, rfl, rfl, rfl⟩
  · have hno : ¬ name.toList.all Template.isKeyInner = true := fun h => by
      simpa [hnot] using hall.mp h c hc
    rw [if_neg hno] at heval
    exact string_eq_stopped_iff.mpr ⟨_, heval, rfl, rfl⟩
  · refine name_eq_done_iff.mpr ⟨?_, rfl, rfl⟩
    unfold Scope.value
    rw [hv]

/-- The middle dot stands inside of names, and no placeholder takes it. -/
theorem placeholder_middleDot_fails :
    Rule.name.spells "a·b".toList = true ∧
    Scope.get? ⟨{}, [("a·b", .int 1)]⟩ "a·b" = some (.value (.int 1)) ∧
    expr {} (Offside.invoke {} 0) (.string (.placeholder "a·b" false) .initial)
      [("a·b", .int 1)] {} ≠ .done (.str (Value.int 1).display) [("a·b", .int 1)] {} := by
  refine ⟨by decide +kernel, rfl, fun h => ?_⟩
  obtain ⟨text, htext, -⟩ := string_eq_done_iff.mp h
  have hfails : ((StrLit.placeholder "a·b" false).eval ⟨{}, [("a·b", .int 1)]⟩).toOption = none := by
    decide +kernel
  rw [htext] at hfails
  cases hfails

/-- Letters of another script and digits are fine for both. -/
theorem placeholder_evaluates_letters :
    expr {} (Offside.invoke {} 0) (.string (.placeholder "größe_2" true) .initial)
      [("größe_2", .int 1)] {} = .done (.str "1") [("größe_2", .int 1)] {} := by
  have hall : "größe_2".toList.all Template.isKeyInner = true := by decide +kernel
  refine (placeholder_evaluates_iff {} (Offside.invoke {} 0) (v := .int 1) (by decide +kernel) rfl
    true .initial {}).1.mpr fun c hc => ?_
  exact Template.isKeyInner_iff.mp (List.all_eq_true.mp hall c hc)

end Eval

end Offside
