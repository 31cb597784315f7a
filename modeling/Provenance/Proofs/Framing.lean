import Mathlib.Tactic.Common
import Provenance.Fingerprint
import Provenance.Proofs.DebugIdText

/-!
# Framed parts are told apart

The stream that a fingerprint hashes puts the length of each part in front of it, in eight bytes.
A length that fits them is read off the stream before the part, whatever bytes the part holds, so
the first frame and what follows it are known (`frame_append_inj`) and, frame by frame, all parts
are (`stream_inj`). Output whose parts differ is therefore hashed from different streams.
-/

namespace Provenance

/-! ### Bytes -/

lemma toList_loop_eq (bytes : ByteArray) (i : Nat) (front : List UInt8) :
    ByteArray.toList.loop bytes i front = front.reverse ++ bytes.data.toList.drop i := by
  rw [ByteArray.toList.loop.eq_def]
  split_ifs with hi
  · have hlt : i < bytes.data.toList.length := hi
    have hget : bytes.get! i = bytes.data.toList[i] := by
      rw [Array.getElem_toList]
      exact getElem!_pos bytes.data i hi
    rw [toList_loop_eq bytes (i + 1), List.drop_eq_getElem_cons hlt, ← hget, List.reverse_cons,
      List.append_assoc, List.singleton_append]
  · rw [List.drop_eq_nil_of_le (Nat.not_lt.mp hi), List.append_nil]
termination_by bytes.size - i

lemma toList_byteArray (bytes : ByteArray) : bytes.toList = bytes.data.toList :=
  toList_loop_eq bytes 0 []

/-- Texts with the same bytes are the same. -/
lemma utf8_inj {s t : String} : utf8 s = utf8 t ↔ s = t := by
  refine ⟨fun h => ?_, congrArg utf8⟩
  rw [utf8, utf8, toList_byteArray, toList_byteArray, Array.toList_inj] at h
  exact String.toByteArray_inj.mp (ByteArray.ext h)

lemma littleEndian_inj {count m n : Nat} (hm : m < 1 <<< (8 * count)) (hn : n < 1 <<< (8 * count)) :
    littleEndian count m = littleEndian count n ↔ m = n := by
  refine ⟨fun h => ?_, congrArg (littleEndian count)⟩
  rw [← ofLittleEndian_littleEndian hm, h, ofLittleEndian_littleEndian hn]

/-! ### The text of a digest -/

lemma Hex.digitChar_inj {m n : Nat} (hm : m < 16) (hn : n < 16)
    (h : Nat.digitChar m = Nat.digitChar n) : m = n :=
  Option.some.inj ((value?_digitChar m hm).symm.trans (h ▸ value?_digitChar n hn))

lemma Hex.byte_inj {b c : UInt8} (h : Hex.byte b = Hex.byte c) : b = c := by
  simp only [Hex.byte, Hex.lower, List.cons.injEq, and_true] at h
  have hmod : ∀ n, n % 16 < 16 := fun n => Nat.mod_lt n (by decide)
  have hhigh := digitChar_inj (hmod _) (hmod _) h.1
  have hlow := digitChar_inj (hmod _) (hmod _) h.2
  have hb := b.toNat_lt
  have hc := c.toNat_lt
  exact UInt8.toNat_inj.mp (by omega)

lemma hexText_inj {bytes bytes' : List UInt8} :
    hexText bytes = hexText bytes' ↔ bytes = bytes' := by
  refine ⟨fun h => ?_, congrArg hexText⟩
  rw [hexText, hexText, String.ofList_inj] at h
  induction bytes generalizing bytes' with
  | nil =>
    cases bytes' with
    | nil => rfl
    | cons b' bytes' => cases h
  | cons b bytes ih =>
    cases bytes' with
    | nil => cases h
    | cons b' bytes' =>
      rw [List.flatMap_cons, List.flatMap_cons] at h
      obtain ⟨hbyte, hrest⟩ := List.append_inj h rfl
      rw [Hex.byte_inj hbyte, ih hrest]

/-- The text of a digest tells it. -/
lemma Digest.text_inj {d d' : Digest} : d.text = d'.text ↔ d = d' := by
  refine ⟨fun h => ?_, congrArg Digest.text⟩
  rw [text, text, hexText_inj, bytes, bytes] at h
  obtain ⟨hlow, hhigh⟩ := List.append_inj h (by rw [length_littleEndian, length_littleEndian])
  have hlt : ∀ w : UInt64, w.toNat < 1 <<< (8 * 8) := fun w => w.toNat_lt
  rw [littleEndian_inj (hlt _) (hlt _), UInt64.toNat_inj] at hlow hhigh
  cases d
  cases d'
  exact congrArg₂ Digest.mk hlow hhigh

namespace Fingerprint

/-! ### Frames -/

/-- Parts whose lengths fit the eight bytes in front of them. -/
def AreFramable (parts : List Bytes) : Prop := ∀ part ∈ parts, part.length < UInt64.size

variable {part part' rest rest' : Bytes} {parts parts' : List Bytes}

/-- The first frame of a stream is told by its bytes, and so is what follows it. -/
lemma frame_append_inj (h : part.length < UInt64.size) (h' : part'.length < UInt64.size) :
    frame part ++ rest = frame part' ++ rest' ↔ part = part' ∧ rest = rest' := by
  constructor
  · intro heq
    rw [frame, frame, List.append_assoc, List.append_assoc] at heq
    obtain ⟨hlength, hbehind⟩ :=
      List.append_inj heq (by rw [length_littleEndian, length_littleEndian])
    exact List.append_inj hbehind ((littleEndian_inj h h').mp hlength)
  · rintro ⟨rfl, rfl⟩
    rfl

lemma frame_append_ne_nil : frame part ++ rest ≠ [] := by
  rw [frame, littleEndian]
  exact List.cons_ne_nil _ _

/-- A stream tells its parts: how many there are, and each of them. -/
lemma stream_inj (h : AreFramable parts) (h' : AreFramable parts') :
    stream parts = stream parts' ↔ parts = parts' := by
  refine ⟨fun heq => ?_, congrArg stream⟩
  induction parts generalizing parts' with
  | nil =>
    cases parts' with
    | nil => rfl
    | cons part' parts' => exact absurd heq.symm frame_append_ne_nil
  | cons part parts ih =>
    cases parts' with
    | nil => exact absurd heq frame_append_ne_nil
    | cons part' parts' =>
      obtain ⟨hpart, hparts⟩ := List.forall_mem_cons.mp h
      obtain ⟨hpart', hparts'⟩ := List.forall_mem_cons.mp h'
      obtain ⟨rfl, hrest⟩ := (frame_append_inj hpart hpart').mp heq
      rw [ih hparts hparts' hrest]

/-! ### Fingerprints of output -/

/-- The parts of output are told by the two that vary. -/
lemma outputParts_inj {logic : List String} {transformer transformer' : Option String}
    {config config' : Json} :
    outputParts logic transformer config = outputParts logic transformer' config' ↔
      transformer.getD "" = transformer'.getD "" ∧ config.text = config'.text := by
  rw [outputParts, outputParts, List.cons.injEq, utf8_inj, List.append_cancel_left_eq,
    List.singleton_inj, documentPart, documentPart, utf8_inj]

/-- Streams of parts are equal just if the parts are, however many there are and whatever they hold.
So output is hashed from equal streams just if the fingerprints of the transformers, none counting
as an empty one, and the compact texts of the configurations are equal; and where others have one
fingerprint, two different streams have one digest. -/
theorem stream_unambiguous {logic : List String} {transformer transformer' : Option String}
    {config config' : Json} (hparts : AreFramable parts) (hparts' : AreFramable parts')
    (h : AreFramable (outputParts logic transformer config))
    (h' : AreFramable (outputParts logic transformer' config')) :
    (stream parts = stream parts' ↔ parts = parts') ∧
    (stream (outputParts logic transformer config) =
        stream (outputParts logic transformer' config') ↔
      transformer.getD "" = transformer'.getD "" ∧ config.text = config'.text) ∧
    ((ofParts (outputParts logic transformer config)).text =
        (ofParts (outputParts logic transformer' config')).text ↔
      (transformer.getD "" = transformer'.getD "" ∧ config.text = config'.text) ∨
        (stream (outputParts logic transformer config) ≠
            stream (outputParts logic transformer' config') ∧
          Digest.ofBytes (stream (outputParts logic transformer config)) =
            Digest.ofBytes (stream (outputParts logic transformer' config')))) := by
  have hstream := (stream_inj h h').trans outputParts_inj
  refine ⟨stream_inj hparts hparts', hstream, ?_⟩
  rw [Digest.text_inj, ofParts, ofParts, ← hstream]
  constructor
  · intro hdigest
    by_cases hs : stream (outputParts logic transformer config) =
        stream (outputParts logic transformer' config')
    · exact .inl hs
    · exact .inr ⟨hs, hdigest⟩
  · rintro (hs | ⟨-, hdigest⟩)
    · rw [hs]
    · exact hdigest

/-- A part that looks like the frames of two others is not taken for them, and a transformer without
a fingerprint counts as one whose fingerprint is empty. -/
theorem stream_unambiguous_lookalike :
    let inner := frame (utf8 "a") ++ frame (utf8 "b")
    stream [inner] ≠ stream [utf8 "a", utf8 "b"] ∧
    stream (outputParts ["1"] none (.object [])) =
      stream (outputParts ["1"] (some "") (.object [])) ∧
    (ofParts (outputParts ["1"] none (.object []))).text =
      (ofParts (outputParts ["1"] (some "") (.object []))).text := by
  intro inner
  have hparts : AreFramable [inner] ∧ AreFramable [utf8 "a", utf8 "b"] := by
    unfold AreFramable
    decide +kernel
  have h : AreFramable (outputParts ["1"] none (.object [])) ∧
      AreFramable (outputParts ["1"] (some "") (.object [])) := by
    unfold AreFramable
    decide +kernel
  obtain ⟨hlookalike, hstream, hfingerprint⟩ := stream_unambiguous hparts.1 hparts.2 h.1 h.2
  exact ⟨fun heq => absurd (hlookalike.mp heq) (by decide +kernel), hstream.mpr ⟨rfl, rfl⟩,
    hfingerprint.mpr (.inl ⟨rfl, rfl⟩)⟩

end Fingerprint

end Provenance
