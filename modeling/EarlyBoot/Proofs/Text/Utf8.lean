set_option autoImplicit false

namespace EarlyBoot

theorem toUTF8_eq_flatMap (text : String) :
    text.toUTF8.data.toList = text.toList.flatMap String.utf8EncodeChar := by
  rw [String.toUTF8_eq_toByteArray]
  conv => lhs; rw [← String.ofList_toList (s := text)]
  rw [String.toByteArray_ofList, List.utf8Encode, List.data_toByteArray]

theorem toUTF8_of_fromUTF8? {bytes : ByteArray} {text : String}
    (decoded : String.fromUTF8? bytes = some text) : text.toUTF8 = bytes := by
  unfold String.fromUTF8? at decoded
  split at decoded
  next valid =>
    rw [Option.some.injEq] at decoded
    subst decoded
    rfl
  next => contradiction

theorem fromUTF8?_toUTF8 (text : String) : String.fromUTF8? text.toUTF8 = some text := by
  simp only [String.fromUTF8?, String.toUTF8_eq_toByteArray, dif_pos text.isValidUTF8]
  rfl

theorem fromUTF8?_toByteArray_iff {bytes : List UInt8} {text : String} :
    String.fromUTF8? bytes.toByteArray = some text ↔ bytes = text.toUTF8.data.toList := by
  constructor
  · intro decoded
    rw [toUTF8_of_fromUTF8? decoded, List.data_toByteArray]
  · rintro rfl
    have same : text.toUTF8.data.toList.toByteArray = text.toUTF8 :=
      ByteArray.ext (by rw [List.data_toByteArray])
    rw [same]
    exact fromUTF8?_toUTF8 text

end EarlyBoot
