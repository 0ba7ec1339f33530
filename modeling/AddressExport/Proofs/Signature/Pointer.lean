import AddressExport.Proofs.Signature.Joining

/-!
# Types of pointers to functions

The type of a pointer to a function is itself a signature, with ` (*)` behind the result and all
else as it was, so it tells the parts of the signature that it was made from
(`pointerType_outcome`).
-/

namespace AddressExport

/-! ## Reading the type of a pointer -/

theorem pointerType_eq_ok_iff {signature type : String} :
    pointerType signature = .ok type ↔
      ∃ s, Signature.ofText signature = .ok s ∧ s.pointerType = type := by
  unfold pointerType
  cases Signature.ofText signature <;> simp [Except.map]

namespace Signature

variable {s : Signature}

theorem toList_pointerType (s : Signature) :
    s.pointerType.toList = (s.result ++ " (*)").toList ++
      '(' :: ((", ".intercalate s.parameters).toList ++ ')' ::
        (Text.setOff s.trailing).toList) := by
  unfold pointerType Text.setOff
  simp

theorem IsWellFormed.pointer (h : s.IsWellFormed) :
    IsWellFormed { s with result := s.result ++ " (*)" } where
  result_ne := by simp
  isTrimmed_result := by
    have hne : s.result.toList ≠ [] := by simpa using h.result_ne
    simpa using h.isTrimmed_result.append_singleton (c := ')') rfl hne " (*".toList
  isParameterList := h.isParameterList
  isBalanced_parameters := h.isBalanced_parameters
  isTrimmed_trailing := h.isTrimmed_trailing
  not_mem_trailing := h.not_mem_trailing

theorem ofText_pointerType (h : s.IsWellFormed) :
    ofText s.pointerType = .ok { s with result := s.result ++ " (*)" } :=
  ofText_of_written h.pointer (toList_pointerType s) h.pointer.isTrimmed_result.trimBlanks_eq
    (Text.trimBlanks_setOff h.isTrimmed_trailing)
      (Text.not_mem_setOff (by decide) h.not_mem_trailing)

theorem pointerType_injective {t : Signature} (hs : s.IsWellFormed) (ht : t.IsWellFormed)
    (h : s.pointerType = t.pointerType) : s = t := by
  have hparts := (ofText_pointerType hs).symm.trans (h ▸ ofText_pointerType ht)
  obtain ⟨hresult, hparameters, htrailing⟩ := Signature.mk.inj (Except.ok.inj hparts)
  cases s
  cases t
  congr
  exact (String.append_left_inj _).1 hresult

end Signature

/-- A signature that has parts has a pointer type, which is read with the same parameters and the
same trailing text, and which is that of another signature exactly if the other has the same
parts. -/
theorem pointerType_outcome {signature : String} {s : Signature}
    (h : Signature.ofText signature = .ok s) :
    pointerType signature = .ok s.pointerType ∧
    Signature.ofText s.pointerType = .ok { s with result := s.result ++ " (*)" } ∧
    ∀ other, pointerType other = .ok s.pointerType ↔ Signature.ofText other = .ok s := by
  have hs := Signature.isWellFormed_of_ofText h
  refine ⟨pointerType_eq_ok_iff.2 ⟨s, h, rfl⟩, Signature.ofText_pointerType hs, fun other => ?_⟩
  rw [pointerType_eq_ok_iff]
  constructor
  · rintro ⟨t, ht, htype⟩
    rwa [← Signature.pointerType_injective (Signature.isWellFormed_of_ofText ht) hs htype]
  · intro hother
    exact ⟨s, hother, rfl⟩

/-- An empty parameter, a bracket that is closed before it is opened, and blanks that do not
count. -/
theorem pointerType_unevenBrackets :
    Signature.ofText "int(*)  ( , >a,b<,c(d,e) )const" =
      .ok ⟨"int(*)", ["", ">a,b<", "c(d,e)"], "const"⟩ ∧
    pointerType "int(*)  ( , >a,b<,c(d,e) )const" = .ok "int(*) (*)(, >a,b<, c(d,e)) const" ∧
    Signature.ofText "int(*) (*)(, >a,b<, c(d,e)) const" =
      .ok ⟨"int(*) (*)", ["", ">a,b<", "c(d,e)"], "const"⟩ ∧
    (pointerType "int(*)(,>a,b<,c(d,e)) const" = .ok "int(*) (*)(, >a,b<, c(d,e)) const" ↔
      Signature.ofText "int(*)(,>a,b<,c(d,e)) const" =
        .ok ⟨"int(*)", ["", ">a,b<", "c(d,e)"], "const"⟩) := by
  have h : Signature.ofText "int(*)  ( , >a,b<,c(d,e) )const" =
      .ok ⟨"int(*)", ["", ">a,b<", "c(d,e)"], "const"⟩ := by decide +kernel
  obtain ⟨hpointer, htext, hother⟩ := pointerType_outcome h
  exact ⟨h, hpointer, htext, hother _⟩

end AddressExport
