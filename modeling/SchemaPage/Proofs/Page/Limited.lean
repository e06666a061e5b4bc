import SchemaPage.Proofs.Page.Draft

/-!
# Pages in a sink with limited room

A page is written like its text.  So a page that meets a full sink is there up to the last byte that
fitted, and a type name that stands for nothing is reported only when everything before it has been
taken.

* `Document.generate_unlimited`: a page in a sink that takes everything.
* `Document.generate_of_le`, `Document.generate_of_lt`: a page in a sink that has room for it, or
  has not.
* `Document.generate_limited`: what is left of a page in a sink with limited room, and how it ends.
-/

namespace SchemaPage

namespace Document

variable (g : Graph) (options : PageOptions)

/-- A page in a sink that takes everything. -/
theorem generate_unlimited :
    generate g options Sink.unlimited =
      ({ Sink.unlimited with taken := (draft g options).text.toUTF8 },
        (draft g options).ending none) := by
  rw [generate_eq, Sink.write_of_none rfl,
    show Sink.unlimited.taken ++ (draft g options).text.toUTF8 = _ from ByteArray.empty_append]
  rfl

variable {g options} {n : Nat} (cause : SinkError) (refusesFlush : Bool)

/-- A page in a sink that has room for it. -/
theorem generate_of_le (h : (draft g options).text.toUTF8.size ≤ n) :
    generate g options ⟨some n, cause, refusesFlush, .empty⟩ =
      (⟨some (n - (draft g options).text.toUTF8.size), cause, refusesFlush,
          (draft g options).text.toUTF8⟩,
        (draft g options).ending (if refusesFlush then some .flushRefused else none)) := by
  rw [generate_eq, Sink.write_of_le rfl h, ByteArray.empty_append]
  rfl

/-- A page in a sink that has no room for it. -/
theorem generate_of_lt (h : n < (draft g options).text.toUTF8.size) :
    generate g options ⟨some n, cause, refusesFlush, .empty⟩ =
      (⟨some 0, cause, refusesFlush, (draft g options).text.toUTF8.extract 0 n⟩,
        .error (.sink cause)) := by
  rw [generate_eq, Sink.write_of_lt rfl h, ByteArray.empty_append]

/-- A page in a sink with room for `n` bytes, against the page in a sink that takes everything.
When the page fits it is there in full and ends as it does anyway, unless it is complete and the
sink refuses to finish.  When it does not fit, its first `n` bytes are there and the sink is what it
failed by.  So a type name is reported exactly when the sink could take everything before it. -/
theorem generate_limited (g : Graph) (options : PageOptions) (n : Nat) (cause : SinkError)
    (refusesFlush : Bool) :
    let whole := generate g options Sink.unlimited
    let cut := generate g options ⟨some n, cause, refusesFlush, .empty⟩
    (whole.1.taken.size ≤ n → cut.1.taken = whole.1.taken ∧
      cut.2 = match whole.2 with
        | .error e => .error e
        | .ok () => if refusesFlush then .error (.sink .flushRefused) else .ok ()) ∧
    (n < whole.1.taken.size → cut.1.taken = whole.1.taken.extract 0 n ∧
      cut.2 = .error (.sink cause)) ∧
    ∀ e, cut.2 = .error (.resolve e) ↔
      whole.2 = .error (.resolve e) ∧ whole.1.taken.size ≤ n := by
  rw [generate_unlimited]
  by_cases hfit : (draft g options).text.toUTF8.size ≤ n
  · have hnot : ¬ n < (draft g options).text.toUTF8.size := Nat.not_lt.2 hfit
    rw [generate_of_le cause refusesFlush hfit]
    refine ⟨fun _ => ⟨rfl, ?_⟩, fun h => absurd h hnot, fun e => ?_⟩
    · unfold Draft.ending
      cases (draft g options).failure with
      | some e => rfl
      | none => cases refusesFlush <;> rfl
    · rw [and_iff_left hfit]
      unfold Draft.ending
      cases (draft g options).failure with
      | some e' => rfl
      | none => cases refusesFlush <;> simp
  · rw [generate_of_lt cause refusesFlush (Nat.not_le.1 hfit)]
    refine ⟨fun h => absurd h hfit, fun _ => ⟨rfl, rfl⟩, fun e => ?_⟩
    exact ⟨nofun, fun h => absurd h.2 hfit⟩

end Document

end SchemaPage
