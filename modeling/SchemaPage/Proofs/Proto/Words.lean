import SchemaPage.Graph.Resolve
import SchemaPage.Proto.Outline

/-!
# Words

The words of a schema are made of letters, digits and underscores.  The lexer makes no other word,
and the outline passes them on, so every name that a descriptor has from the text is a word, or is
made of words with dots between them.

* `isWord`, `isDotted`: the names of the schema language.
* `isTypeName_of_isDotted`, `isTypeName_absolute`: they are well-formed type names.
* `Token.Valid`, `Lexeme.Valid`, `Statement.Valid`: all words in it are words.
* `valid_of_lex?`, `Outline.valid_of_ofLexemes?`: the lexer and the outline make no other.
-/

namespace SchemaPage
namespace Proto

/-- Whether a text is a word of the schema language. -/
def isWord (s : String) : Bool := s != "" && s.toList.all isWordChar

/-- Whether a text is one or more words with dots between them. -/
def isDotted (s : String) : Bool := (Text.split '.' s).all isWord

/-! ## Characters -/

/-- A range that starts no later than the code may hold it. -/
theorem contains_of_le {code first last : Nat} {rest : Text.CodeRanges} (h : first ≤ code)
    (hcode : code ≤ last ∨ Text.CodeRanges.contains code rest = true) :
    Text.CodeRanges.contains code ((first, last) :: rest) = true := by
  rw [Text.CodeRanges.contains_cons, if_neg (by omega), Bool.or_eq_true, decide_eq_true_eq]
  exact hcode

theorem isAlphanumeric_of_toNat {c : Char} (h : (48 ≤ c.toNat ∧ c.toNat ≤ 57) ∨
    (65 ≤ c.toNat ∧ c.toNat ≤ 90) ∨ (97 ≤ c.toNat ∧ c.toNat ≤ 122)) :
    Text.isAlphanumeric c = true := by
  have hranges : Text.alphanumericRanges =
      (48, 57) :: (65, 90) :: (97, 122) :: Text.alphanumericRanges.drop 3 := rfl
  unfold Text.isAlphanumeric
  rw [hranges]
  rcases h with ⟨hl, hr⟩ | ⟨hl, hr⟩ | ⟨hl, hr⟩
  · exact contains_of_le hl (Or.inl hr)
  · refine contains_of_le (by omega) (Or.inr ?_)
    exact contains_of_le hl (Or.inl hr)
  · refine contains_of_le (by omega) (Or.inr (contains_of_le (by omega) (Or.inr ?_)))
    exact contains_of_le hl (Or.inl hr)

/-- The characters of words are characters of names. -/
theorem isNameChar_of_isWordChar {c : Char} (h : isWordChar c = true) :
    Text.isNameChar c = true := by
  unfold isWordChar isWordStart isDigit at h
  simp only [Bool.or_eq_true, Bool.and_eq_true, decide_eq_true_eq, beq_iff_eq] at h
  unfold Text.isNameChar
  rw [Bool.or_eq_true, beq_iff_eq]
  rcases h with ((⟨hl, hr⟩ | ⟨hl, hr⟩) | h) | ⟨hl, hr⟩
  · exact Or.inr (isAlphanumeric_of_toNat (Or.inr (Or.inr ⟨hl, hr⟩)))
  · exact Or.inr (isAlphanumeric_of_toNat (Or.inr (Or.inl ⟨hl, hr⟩)))
  · exact Or.inl h
  · exact Or.inr (isAlphanumeric_of_toNat (Or.inl ⟨hl, hr⟩))

theorem toNat_lt_of_isWordChar {c : Char} (h : isWordChar c = true) : c.toNat < 123 := by
  unfold isWordChar isWordStart isDigit at h
  simp only [Bool.or_eq_true, Bool.and_eq_true, decide_eq_true_eq, beq_iff_eq] at h
  rcases h with ((⟨-, hr⟩ | ⟨-, hr⟩) | rfl) | ⟨-, hr⟩
  · exact Nat.lt_of_le_of_lt (show c.toNat ≤ 122 from hr) (by omega)
  · exact Nat.lt_of_le_of_lt (show c.toNat ≤ 90 from hr) (by omega)
  · decide
  · exact Nat.lt_of_le_of_lt (show c.toNat ≤ 57 from hr) (by omega)

theorem ne_dot_of_isWordChar {c : Char} (h : isWordChar c = true) : c ≠ '.' := by
  rintro rfl
  exact absurd h (by decide)

/-! ## Words and dotted names -/

theorem isWord_iff {s : String} :
    isWord s = true ↔ s ≠ "" ∧ ∀ c ∈ s.toList, isWordChar c = true := by
  simp [isWord]

/-- A word is one part. -/
theorem split_of_isWord {s : String} (h : isWord s = true) : Text.split '.' s = [s] := by
  have hdot : ∀ c ∈ s.toList, (c == '.') = false := fun c hc =>
    beq_eq_false_iff_ne.2 (ne_dot_of_isWordChar ((isWord_iff.1 h).2 c hc))
  unfold Text.split
  rw [Text.cut_of_forall hdot, List.map_singleton, String.ofList_toList]

/-- A dot ends a part. -/
theorem split_append_dot (a b : String) :
    Text.split '.' (a ++ "." ++ b) = Text.split '.' a ++ Text.split '.' b := by
  have htoList : (a ++ "." ++ b).toList = a.toList ++ '.' :: b.toList := by
    rw [String.toList_append, String.toList_append]
    simp
  unfold Text.split
  rw [htoList, Text.cut_append_cons (by rfl), List.map_append]

theorem isDotted_of_isWord {s : String} (h : isWord s = true) : isDotted s = true := by
  unfold isDotted
  rw [split_of_isWord h, List.all_cons, h]
  rfl

theorem isDotted_append {a b : String} (ha : isDotted a = true) (hb : isDotted b = true) :
    isDotted (a ++ "." ++ b) = true := by
  unfold isDotted at *
  rw [split_append_dot, List.all_append, ha, hb]
  rfl

theorem ne_empty_of_isDotted {s : String} (h : isDotted s = true) : s ≠ "" := by
  rintro rfl
  exact absurd h (by decide)

/-- Keywords have small letters and digits only. -/
theorem ofKeyword?_of_mem {w : String} {c : Char} (hc : c ∈ w.toList)
    (h : (c.isLower || c.isDigit) = false) : Scalar.ofKeyword? w = none := by
  have hkeyword : ∀ s : Scalar, (s.keyword.toList.all fun c => c.isLower || c.isDigit) = true := by
    intro s
    cases s <;> decide
  cases hs : Scalar.ofKeyword? w with
  | none => rfl
  | some s =>
    have hall := List.all_eq_true.1 (hkeyword s) c ((Scalar.keyword_of_ofKeyword? hs).symm ▸ hc)
    rw [h] at hall
    exact absurd hall Bool.false_ne_true

/-- No keyword starts with a capital. -/
theorem ofKeyword?_of_isUpper {w : String} {c : Char} (hc : c ∈ w.toList) (h : c.isUpper = true) :
    Scalar.ofKeyword? w = none := by
  refine ofKeyword?_of_mem hc ?_
  unfold Char.isUpper at h
  unfold Char.isLower Char.isDigit
  simp only [decide_eq_true_eq, UInt32.le_iff_toNat_le, ge_iff_le] at h
  simp only [Bool.or_eq_false_iff, Bool.and_eq_false_iff, decide_eq_false_iff_not,
    UInt32.le_iff_toNat_le, ge_iff_le]
  have hle : c.val.toNat ≤ 90 := h.2
  have hge : 65 ≤ c.val.toNat := h.1
  have hsmall : ¬ 97 ≤ c.val.toNat := by omega
  have hdigit : ¬ c.val.toNat ≤ 57 := by omega
  exact ⟨Or.inl hsmall, Or.inr hdigit⟩

theorem ofKeyword?_append_dot (a b : String) : Scalar.ofKeyword? (a ++ "." ++ b) = none := by
  refine ofKeyword?_of_mem (c := '.') ?_ (by decide)
  rw [String.toList_append, String.toList_append]
  exact List.mem_append_left _ (List.mem_append_right _ List.mem_cons_self)

/-- A dotted name does not start with a dot. -/
theorem absolute?_of_isDotted {s : String} (h : isDotted s = true) : absolute? s = none := by
  unfold absolute?
  split
  · rename_i rest hs
    unfold isDotted Text.split at h
    rw [hs, Text.cut_cons_of_pos (by rfl)] at h
    exact absurd h (by simp [isWord])
  · rfl

/-- A dotted name with a dot in front of it is a full name. -/
theorem absolute?_dot (s : String) : absolute? ("." ++ s) = some s := by
  unfold absolute?
  have htoList : ("." ++ s).toList = '.' :: s.toList := by
    rw [String.toList_append]
    rfl
  rw [htoList]
  simp

theorem isWord_all_isNameChar {s : String} (h : isWord s = true) :
    (s != "" && s.toList.all Text.isNameChar) = true := by
  obtain ⟨hne, hall⟩ := isWord_iff.1 h
  rw [Bool.and_eq_true, bne_iff_ne, List.all_eq_true]
  exact ⟨hne, fun c hc => isNameChar_of_isWordChar (hall c hc)⟩

/-- A dotted name with a dot in front of it is a well-formed type name. -/
theorem isTypeName_absolute {s : String} (h : isDotted s = true) :
    isTypeName ("." ++ s) = true := by
  unfold isTypeName
  rw [absolute?_dot, Option.getD_some, List.all_eq_true]
  exact fun part hpart => isWord_all_isNameChar (List.all_eq_true.1 h part hpart)

/-! ## Lexemes -/

/-- If the token is a word, it is a word of the schema language. -/
def Token.Valid : Token → Prop
  | .word w => isWord w = true
  | _ => True

/-- If the lexeme is a word, it is a word of the schema language. -/
def Lexeme.Valid : Lexeme → Prop
  | .token t => t.Valid
  | .remark _ => True

theorem valid_of_integer? {base : Nat} {digits rest rest' : List Char} {t : Token}
    (h : integer? base digits rest = some (t, rest')) : t.Valid := by
  unfold integer? at h
  split at h
  · split at h
    · obtain ⟨rfl, -⟩ := Prod.mk.inj (Option.some_inj.1 h)
      trivial
    · exact absurd h nofun
  · exact absurd h nofun

theorem valid_of_decimal? {inValue : Bool} {rest rest' : List Char} {t : Token}
    (h : decimal? inValue rest = some (t, rest')) : t.Valid := by
  unfold decimal? at h
  repeat' split at h
  all_goals first
    | (obtain ⟨rfl, -⟩ := Prod.mk.inj (Option.some_inj.1 h); trivial)
    | exact absurd h (by simp)

theorem valid_of_plainNumber? {inValue : Bool} {digits rest rest' : List Char} {t : Token}
    (h : plainNumber? inValue digits rest = some (t, rest')) : t.Valid := by
  unfold plainNumber? at h
  simp only at h
  repeat' split at h
  all_goals first
    | exact valid_of_decimal? h
    | exact valid_of_integer? h
    | (obtain ⟨rfl, -⟩ := Prod.mk.inj (Option.some_inj.1 h); trivial)

/-- A number is no word. -/
theorem valid_of_number {inValue : Bool} {cs rest : List Char} {t : Token}
    (h : number inValue cs = some (t, rest)) : t.Valid := by
  unfold number at h
  simp only at h
  repeat' split at h
  all_goals first
    | exact valid_of_decimal? h
    | exact valid_of_integer? h
    | exact valid_of_plainNumber? h
    | (obtain ⟨rfl, -⟩ := Prod.mk.inj (Option.some_inj.1 h); trivial)

theorem isWord_of_takeWhile {c : Char} (h : isWordStart c = true) (cs : List Char) :
    isWord (String.ofList (c :: cs.takeWhile isWordChar)) = true := by
  rw [isWord_iff, String.toList_ofList]
  refine ⟨fun hempty => ?_, fun d hd => ?_⟩
  · have hnil := congrArg String.toList hempty
    rw [String.toList_ofList] at hnil
    exact absurd hnil nofun
  · rcases List.mem_cons.1 hd with rfl | hd
    · unfold isWordChar
      rw [h, Bool.true_or]
    · exact List.all_eq_true.1 List.all_takeWhile d hd

/-- The lexer makes valid lexemes. -/
theorem valid_of_lexeme? {inValue : Bool} {c : Char} {cs rest : List Char} {l : Lexeme}
    (h : lexeme? inValue c cs = some (l, rest)) : l.Valid := by
  unfold lexeme? at h
  split at h
  · obtain ⟨rfl, -⟩ := Prod.mk.inj (Option.some_inj.1 h)
    trivial
  · split at h
    · rename_i hstart
      obtain ⟨rfl, -⟩ := Prod.mk.inj (Option.some_inj.1 h)
      exact isWord_of_takeWhile hstart cs
    · split at h
      · obtain ⟨⟨t, r⟩, ht, heq⟩ := Option.map_eq_some_iff.1 h
        obtain ⟨rfl, -⟩ := Prod.mk.inj heq
        exact valid_of_number ht
      · repeat' split at h
        all_goals first
          | (obtain ⟨rfl, -⟩ := Prod.mk.inj (Option.some_inj.1 h); trivial)
          | (obtain ⟨_, -, heq⟩ := Option.map_eq_some_iff.1 h
             obtain ⟨rfl, -⟩ := Prod.mk.inj heq
             trivial)
          | exact absurd h (by simp)

theorem valid_of_lexAll? {fuel : Nat} {place : Place} {cs : List Char} {ls : List Lexeme}
    (h : lexAll? fuel place cs = some ls) : ∀ l ∈ ls, l.Valid := by
  induction fuel generalizing place cs ls with
  | zero =>
    cases cs with
    | nil =>
      obtain rfl := Option.some_inj.1 h
      exact nofun
    | cons c cs => exact absurd h nofun
  | succ fuel ih =>
    cases cs with
    | nil =>
      obtain rfl := Option.some_inj.1 h
      exact nofun
    | cons c cs =>
      unfold lexAll? at h
      split at h
      · exact ih h
      · split at h
        · exact absurd h nofun
        · rename_i l rest hl
          obtain ⟨ls, hls, rfl⟩ := Option.map_eq_some_iff.1 h
          intro m hm
          rcases List.mem_cons.1 hm with rfl | hm
          · exact valid_of_lexeme? hl
          · exact ih hls m hm

/-- The words that the lexer makes are words of the schema language. -/
theorem valid_of_lex? {text : String} {ls : List Lexeme} (h : lex? text = some ls) :
    ∀ l ∈ ls, l.Valid := valid_of_lexAll? h

/-! ## Statements -/

/-- All words in the statement are words of the schema language. -/
inductive Statement.Valid : Statement → Prop
  | simple {before : List Remark} {tokens : List Token} (h : ∀ t ∈ tokens, t.Valid) :
    Valid (.simple before tokens)
  | block {before : List Remark} {header : List Token} {body : List Statement}
    {last : List Remark} (h : ∀ t ∈ header, t.Valid) (hbody : ∀ s ∈ body, s.Valid) :
    Valid (.block before header body last)

namespace Outline

theorem mem_of_mem_remarks {ls : List Lexeme} {l : Lexeme} (h : l ∈ (remarks ls).2) : l ∈ ls := by
  induction ls with
  | nil => exact h
  | cons m ls ih =>
    cases m with
    | remark r => exact List.mem_cons_of_mem _ (ih h)
    | token t => exact h

/-- A token and what follows it are lexemes of the text if that is so of what follows. -/
theorem mem_of_map_tokens {t : Token} {ls rest : List Lexeme} {ts : List Token} {e : Ending}
    {read : Option (List Token × Ending × List Lexeme)}
    (hread : ∀ ⦃us e' rest'⦄, read = some (us, e', rest') →
      (∀ u ∈ us, Lexeme.token u ∈ ls) ∧ ∀ l ∈ rest', l ∈ ls)
    (h : read.map (fun (ts, ending, rest) => (t :: ts, ending, rest)) = some (ts, e, rest)) :
    (∀ u ∈ ts, Lexeme.token u ∈ Lexeme.token t :: ls) ∧ ∀ l ∈ rest, l ∈ Lexeme.token t :: ls := by
  obtain ⟨⟨us, e', rest'⟩, hus, heq⟩ := Option.map_eq_some_iff.1 h
  obtain ⟨rfl, hrest⟩ := Prod.mk.inj heq
  obtain ⟨-, rfl⟩ := Prod.mk.inj hrest
  obtain ⟨hts, hrest⟩ := hread hus
  refine ⟨fun u hu => ?_, fun l hl => List.mem_cons_of_mem _ (hrest l hl)⟩
  rcases List.mem_cons.1 hu with rfl | hu
  · exact List.mem_cons_self
  · exact List.mem_cons_of_mem _ (hts u hu)

/-- The tokens of a statement and what follows it are lexemes of the text. -/
theorem mem_of_tokens {depth : Nat} {place : Place} {ls rest : List Lexeme} {ts : List Token}
    {e : Ending} (h : tokens depth place ls = some (ts, e, rest)) :
    (∀ t ∈ ts, Lexeme.token t ∈ ls) ∧ ∀ l ∈ rest, l ∈ ls := by
  induction ls generalizing depth place ts rest e with
  | nil => exact absurd h nofun
  | cons m ls ih =>
    cases m with
    | remark r =>
      obtain ⟨hts, hrest⟩ := ih h
      exact ⟨fun t ht => List.mem_cons_of_mem _ (hts t ht),
        fun l hl => List.mem_cons_of_mem _ (hrest l hl)⟩
    | token t =>
      have hend : ∀ e', (some ([], e', ls) : Option (List Token × Ending × List Lexeme)) =
          some (ts, e, rest) → (∀ u ∈ ts, Lexeme.token u ∈ Lexeme.token t :: ls) ∧
            ∀ l ∈ rest, l ∈ Lexeme.token t :: ls := by
        intro e' heq
        obtain ⟨rfl, hrest⟩ := Prod.mk.inj (Option.some_inj.1 heq)
        obtain ⟨-, rfl⟩ := Prod.mk.inj hrest
        exact ⟨nofun, fun l hl => List.mem_cons_of_mem _ hl⟩
      unfold tokens at h
      simp only at h
      repeat' split at h
      all_goals first
        | exact mem_of_map_tokens (fun _ _ _ => ih) h
        | exact hend _ h
        | exact absurd h (by simp)

/-- The statements that are read have the words of the lexemes. -/
theorem valid_of_read? {fuel : Nat} {ls rest : List Lexeme} {o : Outline}
    (h : read? fuel ls = some (o, rest)) (hls : ∀ l ∈ ls, l.Valid) :
    (∀ s ∈ o.statements, s.Valid) ∧ ∀ l ∈ rest, l.Valid := by
  induction fuel generalizing ls rest o with
  | zero => exact absurd h nofun
  | succ fuel ih =>
    have hafter : ∀ l ∈ (remarks ls).2, l.Valid := fun l hl => hls l (mem_of_mem_remarks hl)
    unfold read? at h
    simp only at h
    split at h
    · obtain ⟨rfl, rfl⟩ := Prod.mk.inj (Option.some_inj.1 h)
      exact ⟨nofun, nofun⟩
    · obtain ⟨rfl, rfl⟩ := Prod.mk.inj (Option.some_inj.1 h)
      exact ⟨nofun, hafter⟩
    · split at h
      · exact absurd h nofun
      · rename_i ts rest' htokens
        obtain ⟨hmem, hrest⟩ := mem_of_tokens htokens
        obtain ⟨⟨o', rest''⟩, ho, heq⟩ := Option.map_eq_some_iff.1 h
        obtain ⟨rfl, rfl⟩ := Prod.mk.inj heq
        obtain ⟨hstatements, hrest''⟩ := ih ho fun l hl => hafter l (hrest l hl)
        refine ⟨fun s hs => ?_, hrest''⟩
        rcases List.mem_cons.1 hs with rfl | hs
        · exact .simple fun t ht => hafter _ (hmem t ht)
        · exact hstatements s hs
      · rename_i ts rest' htokens
        obtain ⟨hmem, hrest⟩ := mem_of_tokens htokens
        -- a block is read in two steps: its body, and then the statements after it
        split at h
        · rename_i body after hbody
          obtain ⟨hbodyValid, hafterBody⟩ := ih hbody fun l hl => hafter l (hrest l hl)
          obtain ⟨⟨o', rest''⟩, ho, heq⟩ := Option.map_eq_some_iff.1 h
          obtain ⟨rfl, rfl⟩ := Prod.mk.inj heq
          obtain ⟨hstatements, hrest''⟩ := ih ho fun l hl =>
            hafterBody l (List.mem_cons_of_mem _ hl)
          refine ⟨fun s hs => ?_, hrest''⟩
          rcases List.mem_cons.1 hs with rfl | hs
          · exact .block (fun t ht => hafter _ (hmem t ht)) hbodyValid
          · exact hstatements s hs
        · exact absurd h nofun

/-- The statements of a text have only words of the schema language. -/
theorem valid_of_ofLexemes? {ls : List Lexeme} {o : Outline} (h : ofLexemes? ls = some o)
    (hls : ∀ l ∈ ls, l.Valid) : ∀ s ∈ o.statements, s.Valid := by
  unfold ofLexemes? at h
  split at h
  · rename_i hread
    obtain rfl := Option.some_inj.1 h
    exact (valid_of_read? hread hls).1
  · exact absurd h nofun

end Outline

end Proto
end SchemaPage
