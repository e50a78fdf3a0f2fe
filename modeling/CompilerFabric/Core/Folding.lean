import CompilerFabric.Core.Identity

namespace CompilerFabric

/-- A statement about a byte is checked on all 256. -/
theorem forall_byte {P : UInt8 → Prop} (h : ∀ n<256,P (UInt8.ofNat n)) (c : UInt8) : P c := by
  have hc := h c.toNat c.toNat_lt
  rwa [UInt8.ofNat_toNat] at hc

@[simp] theorem asciiLower_lower : ∀ c,asciiLower (asciiLower c)=asciiLower c :=
  forall_byte (by decide +kernel)

@[simp] theorem asciiUpper_upper : ∀ c,asciiUpper (asciiUpper c)=asciiUpper c :=
  forall_byte (by decide +kernel)

theorem asciiLower_upper : ∀ c,asciiLower (asciiUpper c)=asciiLower c :=
  forall_byte (by decide +kernel)

/-- Texts that agree in upper case agree in lower case. -/
theorem toLowerAscii_of_upper {a b : Bytes} (h : toUpperAscii a=toUpperAscii b) :
    toLowerAscii a=toLowerAscii b := by
  have hmap := congrArg (List.map asciiLower) h
  simp only [toUpperAscii,List.map_map,Function.comp_def,asciiLower_upper] at hmap
  exact hmap

/-- Folding the case makes no separator of a switch and takes none away. -/
theorem asciiLower_switch : ∀ c,asciiLower c ∈ [47,45] ↔ c ∈ [47,45] :=
  forall_byte (by decide +kernel)

end CompilerFabric
