import Offside.Proofs.Run.Pairs

/-!
# Runs that end

The bound on nested calls makes every run end, if only by being cut off.  A run that is not cut off
ends in the same way under every higher bound, so that what comes of a program does not depend on the
bound at all.

* **a higher bound changes nothing but runs that were cut off**: `Program.outcome_of_le`;
* what comes of a program: `Program.Runs`, and there is one such thing only: `Program.Runs.unique`.
-/

namespace Offside

/-- How a run ended and the console after it, without the log. -/
def Answer.outcome (a : Answer) : Except Stop Value × Console :=
  (a.1, a.2.console)

/-- Functions of the program go alike under a higher bound until they are cut off. -/
theorem Pairing.invokes_deeper (g : Globals) (k d : Nat) :
    (onOne true).Invokes id (invoke g d) (invoke g (d + k)) := by
  refine invokes_of_bodies (.refl g) ?_ (fun hi f => alike_body (.refl g) hi f.body) d
  intro f args
  exact ⟨fun _ => .apart ⟨rfl, rfl⟩, fun h => by cases h.2⟩

namespace Program

variable {p : Program} {c : Console}

/-- **A higher bound on nested calls changes nothing** for a run that was not cut off. -/
theorem outcome_of_le {d d' : Nat} {m : Machine} (h : (p.interpret d m).1 ≠ .error .tooDeep)
    (hd : d ≤ d') : (p.interpret d' m).outcome = (p.interpret d m).outcome := by
  obtain ⟨k, rfl⟩ := Nat.exists_eq_add_of_le hd
  have hanswers : (Pairing.onOne true).Answers (p.interpret d m) (p.interpret (d + k) m) :=
    Pairing.interpret rfl rfl (.refl _) (Pairing.invokes_deeper _ k d) rfl
  generalize p.interpret d m = a, p.interpret (d + k) m = a' at hanswers h
  cases hanswers with
  | both hm => exact Prod.ext rfl hm.symm
  | apart hs =>
    obtain ⟨why | v, m₁⟩ := a
    · cases hs.2
      exact absurd rfl h
    · cases hs.2

/-- **What comes of a program** that is run on a console: how it ends and the console after it, with
nested calls bounded so that the run is not cut off. -/
def Runs (p : Program) (c : Console) (r : Except Stop Value) (c' : Console) : Prop :=
  r ≠ .error .tooDeep ∧ ∃ depth, (p.interpret depth { console := c }).outcome = (r, c')

/-- A run that gives a value under some bound. -/
theorem runs_ok {d : Nat} {v : Value} {c' : Console}
    (hv : (p.interpret d { console := c }).1.toOption = some v)
    (hc : (p.interpret d { console := c }).2.console = c') : p.Runs c (.ok v) c' := by
  refine ⟨by simp, d, Prod.ext ?_ hc⟩
  unfold Answer.outcome
  cases hr : (p.interpret d { console := c }).1 with
  | ok w =>
    rw [hr] at hv
    cases hv
    rfl
  | error why =>
    rw [hr] at hv
    cases hv

/-- **A program has one outcome at most.** -/
theorem Runs.unique {r r' : Except Stop Value} {c₁ c₁' : Console} (h : p.Runs c r c₁)
    (h' : p.Runs c r' c₁') : r = r' ∧ c₁ = c₁' := by
  obtain ⟨hr, d, hd⟩ := h
  obtain ⟨hr', d', hd'⟩ := h'
  have hcut : (p.interpret d { console := c }).1 ≠ .error .tooDeep :=
    (Prod.mk.inj hd).1 ▸ hr
  have hcut' : (p.interpret d' { console := c }).1 ≠ .error .tooDeep :=
    (Prod.mk.inj hd').1 ▸ hr'
  -- Both runs end as the one under the greater of the two bounds.
  have hmax := outcome_of_le hcut (Nat.le_max_left d d')
  have hmax' := outcome_of_le hcut' (Nat.le_max_right d d')
  exact Prod.mk.inj (hd.symm.trans (hmax.symm.trans (hmax'.trans hd')))

/-- Programs whose runs do the same under every bound come to the same. -/
theorem runs_iff_of_same {p p' : Program} {c : Console}
    (h : ∀ d, Pairing.same.Answers (p.interpret d { console := c })
      (p'.interpret d { console := c })) (r : Except Stop Value) (c' : Console) :
    p'.Runs c r c' ↔ p.Runs c r c' := by
  have houtcome : ∀ d, (p'.interpret d { console := c }).outcome =
      (p.interpret d { console := c }).outcome := by
    intro d
    have hanswers := h d
    generalize p.interpret d { console := c } = a, p'.interpret d { console := c } = a' at hanswers
    cases hanswers with
    | both hm => exact Prod.ext rfl hm.symm
    | apart hs => exact (Pairing.same_apart hs).elim
  unfold Runs
  simp only [houtcome]

end Program

end Offside
