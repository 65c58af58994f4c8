import CalExport.File.Reading

namespace CalExport

namespace Encoding

def markBytes : ByteArray := mark.toByteArray

def IsMarked (bytes : ByteArray) : Prop := ∃ rest, bytes = markBytes ++ rest

/-- The bytes of a text in an encoding. Latin-1 has a byte for the characters up to U+00FF and for no others. -/
def encode (text : String) : Encoding → ByteArray
  | .utf8 => text.toUTF8
  | .utf8Marked => markBytes ++ text.toUTF8
  | .latin1 => (text.toList.map Char.toUInt8).toByteArray

variable {bytes rest : ByteArray} {text : String} {e : Encoding}

theorem toList_loop (i : Nat) (front : List UInt8) :
    ByteArray.toList.loop bytes i front = front.reverse ++ bytes.data.toList.drop i := by
  fun_induction ByteArray.toList.loop bytes i front with
  | case1 i front hi ih =>
      have hlist : i < bytes.data.toList.length := hi
      have hget : bytes.get! i = bytes.data.toList[i] := getElem!_pos bytes.data i hi
      rw [ih, List.drop_eq_getElem_cons hlist, hget, List.reverse_cons, List.append_assoc]
      rfl
  | case2 i front hi => rw [List.drop_eq_nil_of_le (Nat.le_of_not_lt hi), List.append_nil]

theorem toList_eq : bytes.toList = bytes.data.toList := by
  rw [ByteArray.toList, toList_loop, List.drop_zero, List.reverse_nil, List.nil_append]

theorem toList_eq_iff {l : List UInt8} : bytes.toList = l ↔ bytes = l.toByteArray := by
  rw [toList_eq]
  constructor
  · rintro rfl
    apply ByteArray.ext
    rw [List.data_toByteArray]
  · rintro rfl
    exact List.toList_data_toByteArray

theorem foldl_loop {α : Type} (f : α → UInt8 → α) (left i : Nat) (a : α) (h : left + i = bytes.size) :
    ByteArray.foldlM.loop (m := Id) (fun a b => pure (f a b)) bytes bytes.size (Nat.le_refl _) left i a =
      (bytes.data.toList.drop i).foldl f a := by
  induction left generalizing i a with
  | zero =>
      rw [ByteArray.foldlM.loop, dif_neg (by omega), List.drop_eq_nil_of_le]
      · rfl
      · show bytes.size ≤ i
        omega
  | succ left ih =>
      have hi : i < bytes.size := by omega
      rw [ByteArray.foldlM.loop, dif_pos hi, List.drop_eq_getElem_cons (l := bytes.data.toList) hi, List.foldl_cons]
      exact ih (i + 1) (f a bytes[i]) (by omega)

theorem foldl_eq {α : Type} (f : α → UInt8 → α) (a : α) : bytes.foldl f a = bytes.data.toList.foldl f a := by
  rw [ByteArray.foldl, ByteArray.foldlM]
  dsimp only
  rw [dif_pos (Nat.le_refl _), Nat.sub_zero]
  exact foldl_loop f bytes.size 0 a rfl

theorem toNat_charOfByte (b : UInt8) : (charOfByte b).toNat = b.toNat := by
  have hvalid : b.toNat.isValidChar := Or.inl (by have := b.toNat_lt; omega)
  rw [charOfByte, Char.ofNat, dif_pos hvalid]
  rfl

theorem toUInt8_charOfByte (b : UInt8) : (charOfByte b).toUInt8 = b := by
  apply UInt8.toNat_inj.1
  have hchar := toNat_charOfByte b
  have hbyte := b.toNat_lt
  rw [Char.toUInt8, UInt32.toNat_toUInt8]
  show (charOfByte b).toNat % 2 ^ 8 = b.toNat
  omega

theorem textOfLatin1_eq (bytes : ByteArray) :
    (textOfLatin1 bytes).toList = bytes.data.toList.map charOfByte := by
  have hpush : ∀ (l : List UInt8) (text : String),
      (l.foldl (fun text b => text.push (charOfByte b)) text).toList = text.toList ++ l.map charOfByte := by
    intro l
    induction l with
    | nil => exact fun text => (List.append_nil _).symm
    | cons b l ih =>
        intro text
        rw [List.foldl_cons, ih, String.toList_push, List.append_assoc]
        rfl
  rw [textOfLatin1, foldl_eq, hpush]
  rfl

theorem lt_of_mem_textOfLatin1 {c : Char} (h : c ∈ (textOfLatin1 bytes).toList) : c.toNat < 256 := by
  rw [textOfLatin1_eq] at h
  obtain ⟨b, -, rfl⟩ := List.mem_map.1 h
  rw [toNat_charOfByte]
  exact b.toNat_lt

theorem encode_textOfLatin1 (bytes : ByteArray) : encode (textOfLatin1 bytes) .latin1 = bytes := by
  have hback : Char.toUInt8 ∘ charOfByte = id := funext toUInt8_charOfByte
  rw [encode, textOfLatin1_eq, List.map_map, hback, List.map_id]
  exact (toList_eq_iff.1 toList_eq).symm

theorem fromUTF8_eq_some_iff : String.fromUTF8? bytes = some text ↔ text.toUTF8 = bytes := by
  unfold String.fromUTF8?
  constructor
  · intro h
    split at h
    · cases h
      rfl
    · cases h
  · rintro rfl
    exact dif_pos text.isValidUTF8

theorem fromUTF8_eq_none_iff : String.fromUTF8? bytes = none ↔ ¬ bytes.IsValidUTF8 := by
  unfold String.fromUTF8?
  constructor
  · intro h hvalid
    rw [dif_pos hvalid] at h
    cases h
  · exact fun h => dif_neg h

theorem markBytes_eq : markBytes = ['\uFEFF'].utf8Encode := by
  decide

/-- Behind the mark in front of UTF-8 stands UTF-8. -/
theorem valid_marked_iff : (markBytes ++ rest).IsValidUTF8 ↔ rest.IsValidUTF8 := by
  rw [markBytes_eq]
  constructor
  · rintro ⟨cs, hcs⟩
    have hfirst := List.utf8DecodeChar?_utf8Encode_singleton_append (b := rest) (c := '\uFEFF')
    rw [hcs] at hfirst
    cases cs with
    | nil => cases hfirst
    | cons c cs =>
        rw [List.utf8DecodeChar?_utf8Encode_cons] at hfirst
        obtain rfl := Option.some.inj hfirst
        rw [List.utf8Encode_cons (c := '\uFEFF') (l := cs), ByteArray.append_right_inj] at hcs
        exact ⟨cs, hcs⟩
  · exact ByteArray.isValidUTF8_utf8Encode.append

theorem afterMark_eq_some_iff : afterMark? bytes = some rest ↔ bytes = markBytes ++ rest := by
  rw [afterMark?, Option.ite_none_right_eq_some, toList_eq_iff, Option.some.injEq]
  constructor
  · rintro ⟨hmark, rfl⟩
    have hwhole := ByteArray.extract_append_extract (a := bytes) (i := 0) (j := 3) (k := bytes.size)
    rw [Nat.zero_min, ByteArray.extract_zero_max_size, hmark] at hwhole
    exact hwhole.symm
  · rintro rfl
    exact ⟨ByteArray.extract_append_eq_left rfl, ByteArray.extract_append_eq_right rfl ByteArray.size_append⟩

theorem decodeUtf8_eq_some_iff : decodeUtf8? bytes = some (text, e) ↔
    encode text e = bytes ∧ (e = .utf8Marked ∨ e = .utf8 ∧ ¬ IsMarked bytes) := by
  unfold decodeUtf8?
  constructor
  · intro h
    split at h
    · rename_i found hfound
      cases h
      obtain ⟨rest, hrest, htext⟩ := Option.bind_eq_some_iff.1 hfound
      rw [afterMark_eq_some_iff] at hrest
      rw [fromUTF8_eq_some_iff] at htext
      exact ⟨by rw [encode, htext, hrest], .inl rfl⟩
    · rename_i hnone
      obtain ⟨found, hfound, hpair⟩ := Option.map_eq_some_iff.1 h
      cases hpair
      refine ⟨fromUTF8_eq_some_iff.1 hfound, .inr ⟨rfl, ?_⟩⟩
      rintro ⟨rest, rfl⟩
      rw [afterMark_eq_some_iff.2 rfl, Option.bind_some, fromUTF8_eq_none_iff, ← valid_marked_iff] at hnone
      exact hnone (fromUTF8_eq_some_iff.1 hfound ▸ text.isValidUTF8)
  · rintro ⟨hbytes, rfl | ⟨rfl, hmark⟩⟩
    · rw [afterMark_eq_some_iff.2 hbytes.symm, Option.bind_some, fromUTF8_eq_some_iff.2 rfl]
    · have hnone : afterMark? bytes = none := by
        rw [Option.eq_none_iff_forall_ne_some]
        exact fun rest hrest => hmark ⟨rest, afterMark_eq_some_iff.1 hrest⟩
      rw [hnone, Option.bind_none, fromUTF8_eq_some_iff.2 hbytes]
      rfl

theorem decodeUtf8_eq_none_iff : decodeUtf8? bytes = none ↔ ¬ bytes.IsValidUTF8 := by
  constructor
  · intro h hvalid
    have htext : String.fromUTF8? bytes = some (.fromUTF8 bytes hvalid) := dif_pos hvalid
    unfold decodeUtf8? at h
    rw [htext] at h
    split at h <;> cases h
  · intro h
    rw [Option.eq_none_iff_forall_ne_some]
    rintro ⟨text, e⟩ hfound
    obtain ⟨rfl, rfl | ⟨rfl, -⟩⟩ := decodeUtf8_eq_some_iff.1 hfound
    · exact h (valid_marked_iff.2 text.isValidUTF8)
    · exact h text.isValidUTF8

theorem decode_lossy (bytes : ByteArray) :
    decode? true bytes = some ((decodeUtf8? bytes).getD (textOfLatin1 bytes, .latin1)) := by
  unfold decode?
  cases decodeUtf8? bytes <;> rfl

theorem decode_strict (bytes : ByteArray) : decode? false bytes = decodeUtf8? bytes := by
  unfold decode?
  cases decodeUtf8? bytes <;> rfl

end Encoding

namespace FilePreferences

theorem decode_fst (p : FilePreferences) (path : Path) (bytes : ByteArray) (events : Array Event) :
    (p.decode path bytes events).1 =
      (Encoding.decode? p.lossy bytes).elim (.error (.invalidEncoding path.text)) .ok := by
  rcases hfound : Encoding.decode? p.lossy bytes with _ | ⟨text, encoding⟩
  · unfold decode
    rw [hfound]
    rfl
  · unfold decode
    rw [hfound]
    cases encoding <;> rfl

/-- With single bytes allowed for every file is decoded, and its text in the encoding that is reported is the file
again; that is Latin-1 just for bytes that are not UTF-8, with a character below U+0100 for each, and a mark is reported
just where UTF-8 begins with one. Without single bytes just the files that are not UTF-8 are refused, and of all others
the same is told. -/
theorem decoding_loses_nothing (p : FilePreferences) (path : Path) (bytes : ByteArray) (events : Array Event) :
    (∃ text e, ({ p with lossy := true }.decode path bytes events).1 = .ok (text, e) ∧
        Encoding.encode text e = bytes ∧ (e = .latin1 → ∀ c ∈ text.toList, c.toNat < 256) ∧
        (e = .latin1 ↔ ¬ bytes.IsValidUTF8) ∧ (e = .utf8Marked ↔ bytes.IsValidUTF8 ∧ Encoding.IsMarked bytes)) ∧
      (({ p with lossy := false }.decode path bytes events).1 = .error (.invalidEncoding path.text) ↔
        ¬ bytes.IsValidUTF8) ∧
      (bytes.IsValidUTF8 → ({ p with lossy := false }.decode path bytes events).1 =
        ({ p with lossy := true }.decode path bytes events).1) := by
  rw [decode_fst, decode_fst, Encoding.decode_lossy, Encoding.decode_strict]
  rcases hfound : Encoding.decodeUtf8? bytes with _ | ⟨text, e⟩
  · have hinvalid := Encoding.decodeUtf8_eq_none_iff.1 hfound
    refine ⟨⟨Encoding.textOfLatin1 bytes, .latin1, rfl, Encoding.encode_textOfLatin1 bytes, ?_, ?_, ?_⟩, ?_, ?_⟩
    · exact fun _ c hc => Encoding.lt_of_mem_textOfLatin1 hc
    · exact iff_of_true rfl hinvalid
    · exact iff_of_false (by rintro ⟨⟩) fun h => hinvalid h.1
    · exact iff_of_true rfl hinvalid
    · exact fun h => absurd h hinvalid
  · obtain ⟨hbytes, he⟩ := Encoding.decodeUtf8_eq_some_iff.1 hfound
    have hvalid : bytes.IsValidUTF8 := by
      apply Classical.not_not.1
      rw [← Encoding.decodeUtf8_eq_none_iff, hfound]
      rintro ⟨⟩
    have hlatin : e ≠ .latin1 := by rcases he with rfl | ⟨rfl, -⟩ <;> rintro ⟨⟩
    refine ⟨⟨text, e, rfl, hbytes, fun h => absurd h hlatin, ?_, ?_⟩, ?_, fun _ => rfl⟩
    · exact iff_of_false hlatin (not_not_intro hvalid)
    · rcases he with rfl | ⟨rfl, hmark⟩
      · exact iff_of_true rfl ⟨hvalid, text.toUTF8, hbytes.symm⟩
      · exact iff_of_false (by rintro ⟨⟩) fun h => hmark h.2
    · exact iff_of_false (by rintro ⟨⟩) (not_not_intro hvalid)

/-- A mark alone, and a mark in front of a byte that is no UTF-8. -/
theorem decoding_loses_nothing_marks :
    (Encoding.markBytes.IsValidUTF8 ∧
        (({ lossy := false } : FilePreferences).decode ⟨"a.txt"⟩ Encoding.markBytes #[]).1 = .ok ("", .utf8Marked) ∧
        (({ lossy := false } : FilePreferences).decode ⟨"a.txt"⟩ Encoding.markBytes #[]).1 =
          (({ lossy := true } : FilePreferences).decode ⟨"a.txt"⟩ Encoding.markBytes #[]).1) ∧
      ∃ text, (({ lossy := true } : FilePreferences).decode ⟨"a.txt"⟩ (Encoding.markBytes.push 0xff) #[]).1 =
          .ok (text, .latin1) ∧ text = "\u00ef\u00bb\u00bf\u00ff" ∧
        Encoding.encode text .latin1 = Encoding.markBytes.push 0xff ∧ ∀ c ∈ text.toList, c.toNat < 256 := by
  have hvalid : Encoding.markBytes.IsValidUTF8 := by decide +kernel
  have hfound : Encoding.decodeUtf8? Encoding.markBytes = some ("", .utf8Marked) :=
    Encoding.decodeUtf8_eq_some_iff.2 ⟨by decide +kernel, .inl rfl⟩
  obtain ⟨-, -, hsame⟩ := decoding_loses_nothing {} ⟨"a.txt"⟩ Encoding.markBytes #[]
  obtain ⟨⟨text, e, hdecoded, hbytes, hlatin, hinvalid, -⟩, -⟩ :=
    decoding_loses_nothing {} ⟨"a.txt"⟩ (Encoding.markBytes.push 0xff) #[]
  have hbroken : ¬ (Encoding.markBytes.push 0xff).IsValidUTF8 := by decide +kernel
  obtain rfl := hinvalid.2 hbroken
  refine ⟨⟨hvalid, ?_, hsame hvalid⟩, text, hdecoded, ?_, hbytes, hlatin rfl⟩
  · rw [decode_fst, Encoding.decode_strict, hfound]
    rfl
  · rw [decode_fst, Encoding.decode_lossy, Encoding.decodeUtf8_eq_none_iff.2 hbroken] at hdecoded
    cases hdecoded
    decide +kernel

end FilePreferences

end CalExport
