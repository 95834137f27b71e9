import ApiOutline.Text.Utf8

/-!
# Texts in files

A text is read from its bytes as it was written, unless it has carriage returns
in it: those are taken for line ends of other systems.
-/

namespace ApiOutline.Text

theorem byteArray_toList_loop (bs : ByteArray) (i : Nat) (done : List UInt8) :
    ByteArray.toList.loop bs i done = done.reverse ++ bs.data.toList.drop i := by
  fun_induction ByteArray.toList.loop bs i done with
  | case1 i done hlt ih =>
      have hi : i < bs.data.toList.length := by simpa using hlt
      have hget : bs.get! i = bs.data[i] := getElem!_pos bs.data i hlt
      rw [ih, List.drop_eq_getElem_cons hi, hget]
      simp
  | case2 i done hlt =>
      rw [List.drop_eq_nil_of_le (by simpa using Nat.le_of_not_lt hlt), List.append_nil]

theorem mk_toArray_toList (bs : ByteArray) : ByteArray.mk bs.toList.toArray = bs := by
  rw [ByteArray.toList, byteArray_toList_loop, List.reverse_nil, List.nil_append, List.drop_zero]

/-- The bytes of a text are read as that text. -/
theorem decodeUtf8?_encodeUtf8 (s : String) : decodeUtf8? (encodeUtf8 s) = some s := by
  rw [decodeUtf8?, encodeUtf8, mk_toArray_toList, String.toUTF8_eq_toByteArray,
    String.fromUTF8?, dif_pos s.isValidUTF8]
  rfl

theorem unifyLineEnds_of_notMem {cs : List Char} (h : '\r' ∉ cs) : unifyLineEnds cs = cs := by
  fun_induction unifyLineEnds cs with
  | case1 => rfl
  | case2 cs ih => exact absurd List.mem_cons_self h
  | case3 cs _ ih => exact absurd List.mem_cons_self h
  | case4 c cs _ _ ih => rw [ih fun hmem => h (List.mem_cons_of_mem _ hmem)]

/-- A text without carriage returns is read from a file as it was written. -/
theorem ofList_unifyLineEnds {s : String} (h : '\r' ∉ s.toList) :
    String.ofList (unifyLineEnds s.toList) = s := by
  rw [unifyLineEnds_of_notMem h, String.ofList_toList]

end ApiOutline.Text
