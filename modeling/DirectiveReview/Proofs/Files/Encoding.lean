/-
# Texts as bytes

A text comes back from its bytes.  Where files are read by lines, every line end comes back
as a line feed, so a text comes back as it was if it has no carriage return.
-/

import DirectiveReview.Files.Tree

namespace DirectiveReview

/-- The bytes of an array are listed from the last to the first, behind those that are
listed already. -/
theorem toList_loop_eq_append_drop (bytes : ByteArray) (i : Nat) (listed : List UInt8) :
    ByteArray.toList.loop bytes i listed = listed.reverse ++ bytes.data.toList.drop i := by
  induction i, listed using ByteArray.toList.loop.induct bytes with
  | case1 i listed inside ih =>
      have next : bytes.data.toList.drop i = bytes.get! i :: bytes.data.toList.drop (i + 1) := by
        have bound : i < bytes.data.size := inside
        rw [List.drop_eq_getElem_cons bound, ByteArray.get!, getElem!_pos bytes.data i bound]
        rfl
      rw [ByteArray.toList.loop, if_pos inside, ih, next, List.reverse_cons, List.append_assoc]
      rfl
  | case2 i listed outside =>
      rw [ByteArray.toList.loop, if_neg outside, List.drop_eq_nil_of_le, List.append_nil]
      exact Nat.not_lt.mp outside

theorem toList_eq_toList_data (bytes : ByteArray) : bytes.toList = bytes.data.toList :=
  toList_loop_eq_append_drop bytes 0 []

theorem decodeUtf8?_encodeUtf8 (text : Text) : decodeUtf8? (encodeUtf8 text) = some text := by
  have whole : ByteArray.mk (encodeUtf8 text).toArray = (String.ofList text).toByteArray := by
    rw [encodeUtf8, toList_eq_toList_data]
    rfl
  rw [decodeUtf8?, whole, String.fromUTF8?, dif_pos (String.ofList text).isValidUTF8]
  exact congrArg some String.toList_ofList

/-- A text without carriage returns has no line ends but line feeds. -/
theorem Text.normalizeLineEnds_eq_self {text : Text} (bare : '\r' ∉ text) :
    text.normalizeLineEnds = text := by
  induction text with
  | nil => rfl
  | cons c rest ih =>
      have front : c ≠ '\r' := fun same => bare (same ▸ List.mem_cons_self)
      have behind := ih fun inside => bare (List.mem_cons_of_mem c inside)
      rw [normalizeLineEnds, if_neg front, behind]
      intro more same
      exact absurd same front

theorem decodeLines?_encodeUtf8 {text : Text} (bare : '\r' ∉ text) :
    decodeLines? (encodeUtf8 text) = some text := by
  rw [decodeLines?, decodeUtf8?_encodeUtf8, Option.map_some, Text.normalizeLineEnds_eq_self bare]

end DirectiveReview
