import SchemaPage.Proofs.Proto.Readable
import SchemaPage.Proto.WellKnown

/-!
# The well-known files can be made out

The shorthand in which the well-known files are written leaves little to check: the names of their
messages and enums, and those that their fields refer to, must be words with dots between them.

* `isReadable_message`, `isReadable_scalar`: the shorthand for fields.
* `isDotted_of_eq_ofList`: a check of the characters, by their codes.
* `isReadable_of_mem`: all well-known files are readable.
-/

namespace SchemaPage
namespace Proto

/-! ## Names by the codes of their characters -/

/-- Whether a number is the code of a character inside a word. -/
def isWordCode (n : Nat) : Bool :=
  (Nat.ble 97 n && Nat.ble n 122) || (Nat.ble 65 n && Nat.ble n 90) || Nat.beq n 95 ||
    (Nat.ble 48 n && Nat.ble n 57)

/-- Whether characters make a word. -/
def areWord (l : List Char) : Bool := !l.isEmpty && l.all fun c => isWordCode c.toNat

theorem isWordChar_of_isWordCode {c : Char} (h : isWordCode c.toNat = true) :
    isWordChar c = true := by
  unfold isWordCode at h
  unfold isWordChar isWordStart isDigit
  simp only [Bool.or_eq_true, Bool.and_eq_true, Nat.ble_eq, Nat.beq_eq] at h
  simp only [Bool.or_eq_true, Bool.and_eq_true, decide_eq_true_eq, beq_iff_eq]
  rcases h with ((⟨hl, hr⟩ | ⟨hl, hr⟩) | h) | ⟨hl, hr⟩
  · exact Or.inl (Or.inl (Or.inl ⟨hl, hr⟩))
  · exact Or.inl (Or.inl (Or.inr ⟨hl, hr⟩))
  · exact Or.inl (Or.inr (Char.toNat_inj.1 h))
  · exact Or.inr ⟨hl, hr⟩

theorem isWord_of_eq_ofList {s : String} {l : List Char} (hs : s = String.ofList l)
    (h : areWord l = true) : isWord s = true := by
  unfold areWord at h
  rw [Bool.and_eq_true, Bool.not_eq_true', List.isEmpty_eq_false_iff, List.all_eq_true] at h
  rw [isWord_iff, hs, String.toList_ofList]
  refine ⟨fun hempty => h.1 ?_, fun c hc => isWordChar_of_isWordCode (h.2 c hc)⟩
  rw [← String.toList_ofList (l := l), hempty]
  rfl

/-- A text is a dotted name when its characters are. -/
theorem isDotted_of_eq_ofList {s : String} {l : List Char} (hs : s = String.ofList l)
    (h : (Text.cut (· == '.') l).all areWord = true) : isDotted s = true := by
  unfold isDotted Text.split
  rw [hs, String.toList_ofList, List.all_map, List.all_eq_true]
  exact fun part hpart => isWord_of_eq_ofList rfl (List.all_eq_true.1 h part hpart)

namespace WellKnown

/-! ## Shorthand -/

theorem isWrittenType_full (name : String) : isWrittenType (full name) = isDotted name := by
  have hfull : full name = "." ++ ("google.protobuf" ++ "." ++ name) := by
    unfold full
    rw [← String.append_assoc]
    rfl
  have hpackage : isDotted "google.protobuf" = true := isDotted_of_eq_ofList rfl (by decide +kernel)
  unfold isWrittenType
  rw [hfull, absolute?_dot, Option.getD_some]
  unfold isDotted at hpackage ⊢
  rw [split_append_dot, List.all_append, hpackage, Bool.true_and]

theorem isReadable_scalar (name : String) (number : Int) (s : Scalar) :
    (scalar name number s).isReadable = true := rfl

theorem isReadable_message (name : String) (number : Int) (type : String) :
    (message name number type).isReadable = isDotted type := isWrittenType_full type

theorem isReadable_choice (name : String) (number : Int) (type : String) :
    (choice name number type).isReadable = isDotted type := isWrittenType_full type

theorem isReadable_many (f : FieldDescriptor) : (many f).isReadable = f.isReadable := rfl

theorem isReadable_one (f : FieldDescriptor) : (one f).isReadable = f.isReadable := rfl

/-! ## All files -/

/-- The well-known files are readable. -/
theorem isReadable_of_mem {f : FileDescriptor} (h : f ∈ files) : f.isReadable = true := by
  refine List.all_eq_true.1 (?_ : files.all FileDescriptor.isReadable = true) f h
  -- what is left of the shorthand are the names
  simp only [files, anyFile, apiFile, descriptorFile, durationFile, emptyFile, fieldMaskFile,
    sourceContextFile, structFile, timestampFile, typeFile, wrappersFile, pluginFile,
    structureMessages, optionsMessages, editionMessages, editionEnum, optionsMessage, wrapper,
    file3, enumOf, FileDescriptor.isReadable, FileDescriptor.allMessages, MessageDescriptor.within,
    withinAll, MessageDescriptor.isReadable, isReadable_scalar, isReadable_message,
    isReadable_choice, isReadable_many, isReadable_one, List.all_cons,
    List.all_nil, List.flatMap_cons, List.flatMap_nil, List.cons_append, List.nil_append,
    List.append_nil, List.length_cons, List.length_nil, Bool.true_and, Bool.and_true,
    Bool.not_false, Bool.not_true, Bool.true_or, Bool.false_or, Bool.and_eq_true]
  and_intros
  all_goals first
    | with_reducible apply isWord_of_eq_ofList
    | with_reducible apply isDotted_of_eq_ofList
    | skip
  all_goals exact rfl

end WellKnown

end Proto
end SchemaPage
