import AddressExport.Proofs.Text.Words
import AddressExport.Signature.Foreign

/-!
# The words of a type that count

A text that ends with `*` is a pointer, whatever else it says, and a string exactly if all that it
points to is the word `char` (`ofText?_star`).  A text that ends with neither `*` nor `&` is looked
up by its words (`ofText?_of_isDirect`); the three dots of a variable list need no test of their own
there, for they are no spelling.  So neither qualifiers nor blanks matter, wherever they stand
(`ofText?_of_countedWords`).
-/

namespace AddressExport.ForeignType

/-- The words of a type but for the qualifiers. -/
def countedWords (type : String) : List String :=
  (Text.words type).filter fun w => !qualifiers.contains w

variable {type : String}

theorem isOneWord_of_mem_countedWords {w : String} (h : w ∈ countedWords type) :
    Text.IsOneWord w.toList :=
  Text.isOneWord_of_mem_words (List.mem_filter.1 h).1

theorem intercalate_countedWords_eq_char_iff :
    " ".intercalate (countedWords type) = "char" ↔ countedWords type = ["char"] := by
  constructor
  · intro h
    have hwords : Text.words "char" = ["char"] := by decide
    rw [← hwords, ← h, Text.words_intercalate fun w => isOneWord_of_mem_countedWords]
  · intro h
    rw [h]
    rfl

/-- Blanks around a type do not count. -/
theorem unqualified_eq {s : List Char} (h : Text.splitWords s = Text.splitWords type.toList) :
    unqualified s = " ".intercalate (countedWords type) := by
  rw [unqualified, Text.words_ofList, h]
  rfl

/-! ## Pointers -/

theorem ofText?_star (type : String) :
    ofText? (type ++ "*") = some (if countedWords type = ["char"] then string else pointer) := by
  have htrim : Text.trimBlanks (type ++ "*").toList =
      type.toList.dropWhile Text.isBlank ++ ['*'] := by
    rw [String.toList_append]
    exact Text.trimBlanks_append_singleton rfl _
  have hlast : (type.toList.dropWhile Text.isBlank ++ ['*']).getLast? = some '*' :=
    List.getLast?_concat
  have hdots : type.toList.dropWhile Text.isBlank ++ ['*'] ≠ "...".toList := by
    intro h
    rw [h] at hlast
    exact absurd hlast (by decide)
  have hpointee : Text.beforeEnd? ['*'] (type.toList.dropWhile Text.isBlank ++ ['*']) =
      some (type.toList.dropWhile Text.isBlank) := Text.beforeEnd?_eq_some_iff.2 rfl
  simp only [ofText?, htrim, hlast, hdots, hpointee, unqualified_eq (Text.splitWords_dropWhile _),
    intercalate_countedWords_eq_char_iff]
  rfl

/-! ## Other types -/

/-- Whether a text ends neither like a pointer nor like a reference. -/
def IsDirect (type : String) : Prop := ∀ c ∈ (Text.trim type).toList.getLast?, c ≠ '*' ∧ c ≠ '&'

/-- Only the words that count decide what such a text spells. -/
theorem ofText?_of_isDirect (h : IsDirect type) :
    ofText? type = spellings.lookup (unprefixed (" ".intercalate (countedWords type))) := by
  rw [IsDirect, Text.toList_trim] at h
  have hreference : (Text.trimBlanks type.toList).getLast? ≠ some '&' := fun hlast =>
    (h '&' hlast).2 rfl
  have hpointer : Text.beforeEnd? ['*'] (Text.trimBlanks type.toList) = none := by
    rw [Option.eq_none_iff_forall_ne_some]
    intro pointee hpointee
    have hend := Text.beforeEnd?_eq_some_iff.1 hpointee
    exact (h '*' (by rw [hend]; exact List.getLast?_concat)).1 rfl
  by_cases hdots : Text.trimBlanks type.toList = "...".toList
  · have hwords : countedWords type = ["..."] := by
      rw [countedWords, Text.words, ← Text.splitWords_trimBlanks, hdots]
      decide
    have hunknown : spellings.lookup (unprefixed (" ".intercalate ["..."])) = none := by decide
    simp only [ofText?, hdots, or_true, if_true, hwords, hunknown]
  · simp only [ofText?, hreference, hdots, or_self, if_false, hpointer,
      unqualified_eq (Text.splitWords_trimBlanks _)]

/-- Texts that differ in qualifiers and blanks spell the same type, if they end neither like a
pointer nor like a reference, and the same type of pointer.  No reference is a type. -/
theorem ofText?_of_countedWords :
    (∀ a b, countedWords a = countedWords b →
      ofText? (a ++ "*") = ofText? (b ++ "*") ∧ (IsDirect a → IsDirect b → ofText? a = ofText? b)) ∧
    (∀ type, ofText? (type ++ "*") =
      some (if countedWords type = ["char"] then string else pointer)) ∧
    ∀ type, (Text.trim type).toList.getLast? = some '&' → ofText? type = none := by
  refine ⟨fun a b h => ⟨?_, fun ha hb => ?_⟩, ofText?_star, fun type h => ?_⟩
  · rw [ofText?_star, ofText?_star, h]
  · rw [ofText?_of_isDirect ha, ofText?_of_isDirect hb, h]
  · rw [Text.toList_trim] at h
    simp only [ofText?, h, true_or, if_true]

/-- A qualifier may stand in the middle, and in front of the namespace of the standard library. -/
example :
    ofText? " unsigned\tconst long " = some unsignedLong ∧
    ofText? "volatile std::size_t" = some size := by
  decide

end AddressExport.ForeignType
