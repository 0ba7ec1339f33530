import AddressExport.Proofs.Hash.Word
import AddressExport.Proofs.Name.Assignment

/-!
# Close overloads have different tags

A tag is the hash of the signature that counts.  Signatures whose spellings that count have one
length, and differ in the bytes of one word only, have different tags, so both can be exported under
one name (`overloadTag_separates`).
-/

namespace AddressExport

/-- The bytes of the spelling of a signature that counts. -/
def signatureBytes (signature : String) : List UInt8 :=
  (normalizeSignature signature).toUTF8.data.toList

theorem overloadTag_ne_of_differInOneWord {s t : String}
    (h : Hash.DifferInOneWord (signatureBytes s) (signatureBytes t)) :
    overloadTag s ≠ overloadTag t := by
  intro htag
  have hdigits := String.ofList_injective htag
  exact Hash.hash_ne_of_differInOneWord h (Hash.hexadecimal_injective hdigits)

/-- Two overloads can be exported if their name can, and their tags differ. -/
theorem exists_assign_pair {t u : Target} (hname : t.name = u.name) (hnameable : t.IsNameable)
    (htag : overloadTag t.signature ≠ overloadTag u.signature) :
    ∃ bindings, assign [t, u] = .ok bindings := by
  rw [exists_assign_eq_ok_iff]
  -- signatures that count alike have one tag
  have hsignature : normalizeSignature t.signature ≠ normalizeSignature u.signature := by
    intro heq
    exact htag (by rw [overloadTag, overloadTag, heq])
  have hnameable' : u.IsNameable := by
    rw [Target.IsNameable, ← hname]
    exact hnameable
  refine ⟨?_, ?_, ?_⟩
  · simpa [AreDistinct] using fun _ => hsignature
  · simpa using ⟨hnameable, hnameable'⟩
  · simpa [TagsDiffer] using fun _ => htag

/-- Signatures that differ in one word of the hash only have different tags, and two targets of one
name that can be exported get accessors if their signatures differ so. -/
theorem overloadTag_separates {s t : String}
    (h : Hash.DifferInOneWord (signatureBytes s) (signatureBytes t)) :
    overloadTag s ≠ overloadTag t ∧
      ∀ (n : QualifiedName) (k l : TargetKind), (∃ symbol, n.mangle = .ok symbol) →
        ∃ bindings, assign [⟨n, s, k⟩, ⟨n, t, l⟩] = .ok bindings := by
  have htag := overloadTag_ne_of_differInOneWord h
  exact ⟨htag, fun n k l hn => exists_assign_pair rfl hn htag⟩

/-- Two overloads of a function in a namespace.  Their signatures differ in the ninth to the twelfth
of fourteen bytes, which are the word of four. -/
theorem overloadTag_separates_floatShort :
    Hash.DifferInOneWord (signatureBytes "double  (float)") (signatureBytes "double (short)") ∧
      overloadTag "double  (float)" ≠ overloadTag "double (short)" ∧
      ∃ bindings, assign [⟨⟨["ns", "f"], by decide, by decide⟩, "double  (float)", .function⟩,
        ⟨⟨["ns", "f"], by decide, by decide⟩, "double (short)", .staticMethod⟩] = .ok bindings := by
  have hdiffer : Hash.DifferInOneWord (signatureBytes "double  (float)")
      (signatureBytes "double (short)") := by
    exact ⟨by decide +kernel, by decide +kernel, 8, 4, by decide +kernel, by decide +kernel,
      by decide +kernel⟩
  obtain ⟨htag, hassign⟩ := overloadTag_separates hdiffer
  exact ⟨hdiffer, htag, hassign _ .function .staticMethod ⟨"ns__f", by decide +kernel⟩⟩

end AddressExport
