import MultiClock.Proofs.TruncatedLoads

/-! A block of bytes is visited in one piece, an array one byte after the other. Both come to the same in every use, wherever the
buffer ends. -/

namespace MultiClock

namespace Visit

open Serializer

variable {s : Serializer}

/-- So many bytes of a buffer from a place on, with zeros behind the end. -/
def bytesFrom (buffer : Array UInt8) (start count : Nat) : List UInt8 := List.ofFn fun i : Fin count => buffer.getD (start + i) 0

theorem bytesFrom_succ (buffer : Array UInt8) (start count : Nat) :
    bytesFrom buffer start (count + 1) = buffer.getD start 0 :: bytesFrom buffer (start + 1) count := by
  rw [bytesFrom, List.ofFn_succ, bytesFrom]
  simp only [Fin.val_zero, Nat.add_zero, Fin.val_succ, Nat.add_assoc, Nat.add_comm 1]

theorem byte_load (loading : s.mode = .load) (base : UInt8) :
    Serializer.word base s = (s.buffer.getD s.cursor 0, s.passed 1 (s.buffer.size - s.cursor)) := by
  have byte : readBytes s.buffer 1 s.cursor = (s.buffer.getD s.cursor 0).toNat := by
    rw [readBytes, readBytes, Nat.mul_zero, Nat.add_zero]
  have short : s.buffer.size < s.cursor + 1 ↔ s.buffer.size - s.cursor < 1 := by omega
  have size : Word.size UInt8 = 1 := rfl
  simp only [Serializer.word, loading, size, byte, short, passed]
  exact Prod.ext UInt8.ofNat_toNat rfl

/-- Of the bytes that are left each one takes one away. -/
theorem mapM_byte_load (loading : s.mode = .load) (bases : List UInt8) : bases.mapM Serializer.word s =
    (bytesFrom s.buffer s.cursor bases.length, s.passed bases.length (s.buffer.size - s.cursor)) := by
  induction bases generalizing s with
  | nil =>
    rw [passed, List.length_nil, Nat.add_zero, decide_eq_false (Nat.not_lt_zero _), Bool.or_false]
    rfl
  | cons base bases ih =>
    have left : s.buffer.size - (s.cursor + 1) = s.buffer.size - s.cursor - 1 := Nat.sub_add_eq ..
    have rest : bases.mapM Serializer.word (s.passed 1 (s.buffer.size - s.cursor)) =
        (bytesFrom s.buffer (s.cursor + 1) bases.length,
          (s.passed 1 (s.buffer.size - s.cursor)).passed bases.length (s.buffer.size - s.cursor - 1)) := left ▸ ih loading
    rw [List.mapM_cons, bind_apply, byte_load loading, bind_apply, rest, List.length_cons, bytesFrom_succ, passed_passed, Nat.add_comm 1]
    rfl

theorem array_load (loading : s.mode = .load) (base : Vector UInt8 n) : (Vector.toList <$> Serializer.array base) s =
    (bytesFrom s.buffer s.cursor n, s.passed n (s.buffer.size - s.cursor)) := by
  rw [show Serializer.array base = @Serializer.array _ _ ⟨Serializer.word⟩ base from rfl, toList_array, mapM_byte_load loading,
    Vector.length_toList]

theorem array_writes (data : Vector UInt8 n) : (Serializer.array data).Writes data data.toList := by
  have item : ∀ byte : UInt8, (Serializer.word byte).Writes byte (encode [Scalar.byte byte]) := by
    intro byte
    rw [show encode [Scalar.byte byte] = [byte] from encode_bytes [byte]]
    exact byte_writes byte
  have writes := Writes.array item data
  rwa [← List.map_eq_flatMap, encode_bytes] at writes

end Visit

namespace Serializer

open Visit

/-- For any block and at any place of any buffer, in every use: the same data comes back and the pass goes on in the same way. -/
theorem bytes_eq_array (data : Vector UInt8 n) (s : Serializer) : Serializer.bytes data s = Serializer.array data s := by
  by_cases loading : s.mode = .load
  · have arrayed := array_load loading data
    rw [map_apply] at arrayed
    obtain ⟨loaded, same⟩ := Prod.ext_iff.mp arrayed
    rw [bytes_load loading]
    refine Prod.ext (Vector.toList_inj.mp ?_) same.symm
    exact Vector.toList_ofFn.trans loaded.symm
  · rw [bytes_writes data s loading, array_writes data s loading]

/-- A block that begins inside the buffer and ends behind it. -/
example : Serializer.bytes #v[7, 7, 7] { load #[1, 2] with cursor := 1 } =
    (#v[2, 0, 0], { load #[1, 2] with cursor := 4, overrun := true }) := by
  rfl

end Serializer
end MultiClock
