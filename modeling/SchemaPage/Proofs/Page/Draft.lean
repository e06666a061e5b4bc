import SchemaPage.Page.Generate

/-!
# Drafts that come out whole

A draft that has not failed is the list of all its pieces, and so is every draft that it is made of.
Bytes that are handed to a sink in parts are taken as if they were handed over at once: what no
longer fits is cut off inside one part, and no part after it is offered.  So a page is written to
its end exactly when its draft has not failed and the sink takes all of its text.

* `Draft.failure_append_eq_none_iff`, `Draft.failure_concat_eq_none_iff`: what does not fail has no
  part that fails.
* `Draft.pieces_append`, `Draft.pieces_concat`: its pieces are those of the parts.
* `Draft.append_of_failure`, `Draft.failure_concat`: what fails does so with the first part that
  fails.
* `Sink.write_append`: two parts are taken like the whole.
* `Sink.write_of_size_eq`: whether bytes are taken is a matter of how many there are.
* `Sink.writePieces_eq_write`: pieces are taken like their text.
* `Document.generate_eq`: writing a page is writing its text.
* `Document.generate_eq_ok`, `Document.generate_eq_ok_iff`, `Document.generate_eq_ok_of_size_eq`:
  when a page is written to its end.
-/

namespace SchemaPage

namespace Draft

@[simp] theorem pieces_ofPieces (pieces : List Piece) : (ofPieces pieces).pieces = pieces := rfl

@[simp] theorem failure_ofPieces (pieces : List Piece) : (ofPieces pieces).failure = none := rfl

@[simp] theorem pieces_empty : empty.pieces = [] := rfl

@[simp] theorem failure_empty : empty.failure = none := rfl

/-- A draft behind references comes out when they are found. -/
theorem failure_ofExcept_eq_none_iff {r : Except ResolveError (List Piece)} :
    (ofExcept r).failure = none ↔ ∃ pieces, r = .ok pieces := by
  cases r <;> simp [ofExcept]

@[simp] theorem ofExcept_ok (pieces : List Piece) : ofExcept (.ok pieces) = ofPieces pieces := rfl

@[simp] theorem failure_append_eq_none_iff {d e : Draft} :
    (d ++ e).failure = none ↔ d.failure = none ∧ e.failure = none := by
  obtain ⟨pieces, failure⟩ := d
  cases failure <;> simp [append_def]

theorem pieces_append {d e : Draft} (h : d.failure = none) :
    (d ++ e).pieces = d.pieces ++ e.pieces := by
  rw [append_def, h]

@[simp] theorem failure_concat_eq_none_iff {ds : List Draft} :
    (concat ds).failure = none ↔ ∀ d ∈ ds, d.failure = none := by
  induction ds with
  | nil => simp
  | cons d ds ih => simp [ih]

theorem pieces_concat {ds : List Draft} (h : ∀ d ∈ ds, d.failure = none) :
    (concat ds).pieces = ds.flatMap pieces := by
  induction ds with
  | nil => rfl
  | cons d ds ih =>
    rw [concat_cons, pieces_append (h d List.mem_cons_self),
      ih fun e he => h e (List.mem_cons_of_mem d he), List.flatMap_cons]

/-- Nothing follows a draft that has failed. -/
theorem append_of_failure {d : Draft} {cause : ResolveError} (h : d.failure = some cause)
    (e : Draft) : d ++ e = d := by
  rw [append_def, h]

/-- Two drafts fail by the first failure. -/
theorem failure_append (d e : Draft) : (d ++ e).failure = d.failure.or e.failure := by
  cases h : d.failure with
  | none => rw [append_def, h, Option.none_or]
  | some cause => rw [append_of_failure h, h, Option.some_or]

/-- Drafts one after the other fail by the first failure. -/
theorem failure_concat (ds : List Draft) : (concat ds).failure = ds.findSome? failure := by
  induction ds with
  | nil => rfl
  | cons d ds ih =>
    rw [concat_cons, failure_append, ih, List.findSome?_cons]
    cases d.failure <;> rfl

end Draft

/-! ## Bytes in parts -/

/-- The first bytes of two parts, when the first part has no more of them. -/
theorem extract_append_of_le {a b : ByteArray} {n : Nat} (h : a.size ≤ n) :
    (a ++ b).extract 0 n = a ++ b.extract 0 (n - a.size) := by
  have ha : a.extract 0 n = a := by
    have hmax := ByteArray.extract_zero_max_size (a := a) (i := n)
    rwa [Nat.max_eq_left h] at hmax
  rw [ByteArray.extract_append, ha, Nat.zero_sub]

/-- The first bytes of two parts, when the first part has as many. -/
theorem extract_append_of_ge {a b : ByteArray} {n : Nat} (h : n ≤ a.size) :
    (a ++ b).extract 0 n = a.extract 0 n := by
  have hb : b.extract (0 - a.size) (n - a.size) = ByteArray.empty := by
    rw [ByteArray.extract_eq_empty_iff]
    omega
  rw [ByteArray.extract_append, hb, ByteArray.append_empty]

namespace Sink

variable {s : Sink} {bytes : ByteArray} {n : Nat}

/-- Without a limit everything is taken. -/
theorem write_of_none (hroom : s.room = none) (bytes : ByteArray) :
    s.write bytes = ({ s with taken := s.taken ++ bytes }, none) := by
  unfold write
  rw [hroom]

/-- What fits is taken. -/
theorem write_of_le (hroom : s.room = some n) (h : bytes.size ≤ n) :
    s.write bytes =
      ({ s with room := some (n - bytes.size), taken := s.taken ++ bytes }, none) := by
  unfold write
  rw [hroom]
  exact if_pos h

/-- Of what does not fit the beginning is taken. -/
theorem write_of_lt (hroom : s.room = some n) (h : n < bytes.size) :
    s.write bytes =
      ({ s with room := some 0, taken := s.taken ++ bytes.extract 0 n }, some s.whenFull) := by
  unfold write
  rw [hroom]
  exact if_neg (Nat.not_le.2 h)

/-- Nothing is always taken. -/
@[simp] theorem write_empty (s : Sink) : s.write ByteArray.empty = (s, none) := by
  obtain ⟨room, whenFull, refusesFlush, taken⟩ := s
  cases room with
  | none => simp [write, ByteArray.append_empty]
  | some n => simp [write, ByteArray.append_empty]

/-- What is taken in two parts is taken like the whole: the second part is offered when the first
one has been taken. -/
theorem write_append (s : Sink) (a b : ByteArray) :
    s.write (a ++ b) =
      match s.write a with
      | (s', some e) => (s', some e)
      | (s', none) => s'.write b := by
  have hsize : (a ++ b).size = a.size + b.size := ByteArray.size_append
  cases hroom : s.room with
  | none =>
    rw [write_of_none hroom, write_of_none hroom, ← ByteArray.append_assoc]
    exact (write_of_none (s := { s with taken := s.taken ++ a }) hroom b).symm
  | some n =>
    by_cases ha : a.size ≤ n
    · rw [write_of_le hroom ha]
      by_cases hb : b.size ≤ n - a.size
      · have hab : (a ++ b).size ≤ n := by omega
        have hleft : n - (a ++ b).size = n - a.size - b.size := by omega
        rw [write_of_le hroom hab, hleft, ← ByteArray.append_assoc]
        exact (write_of_le
          (s := { s with room := some (n - a.size), taken := s.taken ++ a }) rfl hb).symm
      · have hab : n < (a ++ b).size := by omega
        rw [write_of_lt hroom hab, extract_append_of_le ha, ← ByteArray.append_assoc]
        exact (write_of_lt (s := { s with room := some (n - a.size), taken := s.taken ++ a }) rfl
          (Nat.not_le.1 hb)).symm
    · have ha : n < a.size := Nat.not_le.1 ha
      have hab : n < (a ++ b).size := by omega
      rw [write_of_lt hroom ha, write_of_lt hroom hab, extract_append_of_ge (Nat.le_of_lt ha)]

/-- Bytes that are taken whole are there. -/
theorem taken_of_write {s' : Sink} (h : s.write bytes = (s', none)) :
    s'.taken = s.taken ++ bytes := by
  cases hroom : s.room with
  | none =>
    rw [write_of_none hroom] at h
    rw [← (Prod.mk.inj h).1]
  | some n =>
    by_cases hfit : bytes.size ≤ n
    · rw [write_of_le hroom hfit] at h
      rw [← (Prod.mk.inj h).1]
    · rw [write_of_lt hroom (Nat.not_le.1 hfit)] at h
      exact absurd (Prod.mk.inj h).2 (Option.some_ne_none _)

/-- A sink that takes some bytes takes any others of the same number. -/
theorem write_of_size_eq {s' : Sink} {bytes' : ByteArray} (h : s.write bytes = (s', none))
    (hsize : bytes'.size = bytes.size) :
    s.write bytes' = ({ s' with taken := s.taken ++ bytes' }, none) := by
  cases hroom : s.room with
  | none =>
    rw [write_of_none hroom] at h ⊢
    rw [← (Prod.mk.inj h).1]
  | some n =>
    by_cases hfit : bytes.size ≤ n
    · rw [write_of_le hroom hfit] at h
      rw [write_of_le hroom (hsize ▸ hfit), ← (Prod.mk.inj h).1, hsize]
    · rw [write_of_lt hroom (Nat.not_le.1 hfit)] at h
      exact absurd (Prod.mk.inj h).2 (Option.some_ne_none _)

/-- Pieces are taken like their text. -/
theorem writePieces_eq_write (s : Sink) (pieces : List Piece) :
    s.writePieces pieces = s.write (Markup.render pieces).toUTF8 := by
  induction pieces generalizing s with
  | nil => exact (write_empty s).symm
  | cons piece pieces ih =>
    have hrender : Markup.render (piece :: pieces) = piece.render ++ Markup.render pieces :=
      String.join_cons
    have hbytes : (Markup.render (piece :: pieces)).toUTF8 =
        piece.render.toUTF8 ++ (Markup.render pieces).toUTF8 := by
      rw [hrender]
      exact String.toByteArray_append
    rw [hbytes, write_append]
    unfold writePieces
    rcases s.write piece.render.toUTF8 with ⟨s', _ | e⟩
    · exact ih s'
    · rfl

end Sink

/-! ## Pages -/

/-- How the writing of a draft ends once the sink has taken all of it. -/
def Draft.ending (d : Draft) (flush : Option SinkError) : Except RenderError Unit :=
  match d.failure, flush with
  | some e, _ => .error (.resolve e)
  | none, some e => .error (.sink e)
  | none, none => .ok ()

/-- The writing of a draft ends well when neither the draft nor the sink has anything to report. -/
theorem Draft.ending_eq_ok_iff {d : Draft} {flush : Option SinkError} :
    d.ending flush = .ok () ↔ d.failure = none ∧ flush = none := by
  unfold ending
  cases d.failure <;> cases flush <;> simp

/-- The writing of a draft ends with a type name when the draft has failed by it. -/
theorem Draft.ending_eq_resolve_iff {d : Draft} {cause : ResolveError} {flush : Option SinkError} :
    d.ending flush = .error (.resolve cause) ↔ d.failure = some cause := by
  unfold ending
  cases d.failure <;> cases flush <;> simp

namespace Document

/-- A page is written like its text.  A type name that stands for nothing is reported when the sink
has taken the text before it, and the sink is asked to finish when it has taken the whole page. -/
theorem generate_eq (g : Graph) (options : PageOptions) (s : Sink) :
    generate g options s =
      match s.write (draft g options).text.toUTF8 with
      | (s', some e) => (s', .error (.sink e))
      | (s', none) => (s', (draft g options).ending s'.flush) := by
  have hwrite : s.writePieces (draft g options).pieces = s.write (draft g options).text.toUTF8 :=
    Sink.writePieces_eq_write s _
  unfold generate Sink.deliver Draft.ending
  rw [hwrite]
  obtain ⟨s', refused⟩ := s.write (draft g options).text.toUTF8
  cases refused with
  | some e => rfl
  | none =>
    cases (draft g options).failure with
    | some e => rfl
    | none => cases hflush : s'.flush <;> simp [hflush]

/-- A page that is written to its end has not failed, and the sink has its bytes. -/
theorem generate_eq_ok {g : Graph} {options : PageOptions} {s s' : Sink}
    (h : generate g options s = (s', .ok ())) :
    (draft g options).failure = none ∧ s'.taken = s.taken ++ (draft g options).text.toUTF8 := by
  rw [generate_eq] at h
  rcases hwrite : s.write (draft g options).text.toUTF8 with ⟨t, _ | e⟩
  · rw [hwrite] at h
    obtain ⟨rfl, hending⟩ := Prod.mk.inj h
    exact ⟨(Draft.ending_eq_ok_iff.1 hending).1, Sink.taken_of_write hwrite⟩
  · rw [hwrite] at h
    exact absurd (Prod.mk.inj h).2 nofun

/-- Where one page is written to its end, so is any other page of the same size that has not
failed. -/
theorem generate_eq_ok_of_size_eq {g g' : Graph} {options options' : PageOptions} {s s' : Sink}
    (h : generate g options s = (s', .ok ())) (hnone : (draft g' options').failure = none)
    (hsize : (draft g' options').text.utf8ByteSize = (draft g options).text.utf8ByteSize) :
    ∃ t, generate g' options' s = (t, .ok ()) := by
  rw [generate_eq] at h ⊢
  rcases hwrite : s.write (draft g options).text.toUTF8 with ⟨t, _ | e⟩
  · rw [hwrite] at h
    obtain ⟨rfl, hending⟩ := Prod.mk.inj h
    have hflush : t.flush = none := (Draft.ending_eq_ok_iff.1 hending).2
    have hwrite' : s.write (draft g' options').text.toUTF8 = _ := Sink.write_of_size_eq hwrite hsize
    rw [hwrite']
    exact ⟨_, Prod.ext rfl (Draft.ending_eq_ok_iff.2 ⟨hnone, hflush⟩)⟩
  · rw [hwrite] at h
    exact absurd (Prod.mk.inj h).2 nofun

/-- Into a sink that never refuses, a page is written to its end when it has not failed. -/
theorem generate_eq_ok_iff {g : Graph} {options : PageOptions} {s : Sink} (hroom : s.room = none)
    (hflush : s.refusesFlush = false) :
    (generate g options s).2 = .ok () ↔ (draft g options).failure = none := by
  have hquiet : ∀ t : Sink, t.refusesFlush = false → t.flush = none := fun t ht => by
    unfold Sink.flush
    rw [ht]
    rfl
  rw [generate_eq, Sink.write_of_none hroom, Draft.ending_eq_ok_iff]
  exact and_iff_left (hquiet _ hflush)

end Document

end SchemaPage
