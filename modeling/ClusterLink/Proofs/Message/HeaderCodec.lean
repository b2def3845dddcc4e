import Mathlib.Data.Set.Function
import ClusterLink.Proofs.Frame.Consumption
/-!
# Headers and their bytes

Every string of 24 bytes is a header, and no other string is. Writing the header gives the string
back, so nothing of it is lost in reading. The other way round something can be: the code of an
operation may be written as a bare code, and is then read as the operation. The headers without such
a kind are those that reading comes to, one for each string of 24 bytes.

Results:
* `Kind.ofCode_eq_iff`: of all kinds with a code, reading the code comes to the one that is not a
  disguised operation.
* `Kind.ofCode_eq_lookup`, `Kind.mem_table_or_eq_unknown`: reading and writing follow one table.
* `Header.bijOn_encode`: writing is a bijection of the headers without disguise and the strings of
  24 bytes.
* `Header.headers_match_their_bytes`: both directions of the codec, for all strings and all headers.
-/
namespace ClusterLink

namespace Kind

/-- The operations by their codes, a category after the other. -/
def table : List (UInt32 × Kind) :=
  [(0x0101, createDatabase), (0x0102, dropDatabase), (0x0103, useDatabase),
    (0x0104, showDatabases),
    (0x0201, createTable), (0x0202, dropTable), (0x0203, alterTable), (0x0204, showTables),
    (0x0205, describeTable),
    (0x0301, createIndex), (0x0302, dropIndex),
    (0x0401, insert), (0x0402, select), (0x0403, update), (0x0404, delete),
    (0x0501, begin), (0x0502, commit), (0x0503, rollback),
    (0x0601, ping), (0x0602, pong), (0x0603, greeting), (0x0604, welcome), (0x0605, error)]

/-- An operation in disguise: a bare code that the table has a row for. -/
def IsDisguised (k : Kind) : Prop := ∃ c, k = unknown c ∧ c ∈ table.map Prod.fst

variable {c : UInt32} {k : Kind}

theorem table_eq : table = named.map fun k => (k.code, k) := rfl

theorem mem_table_iff : (c, k) ∈ table ↔ k ∈ named ∧ k.code = c := by
  simp only [table_eq, List.mem_map, Prod.mk.injEq]
  constructor
  · rintro ⟨n, hn, hc, rfl⟩
    exact ⟨hn, hc⟩
  · rintro ⟨hk, hc⟩
    exact ⟨k, hk, hc, rfl⟩

theorem mem_codes_iff : c ∈ table.map Prod.fst ↔ ∃ n ∈ named, n.code = c := by
  rw [table_eq, List.map_map, List.mem_map]
  rfl

/-- Writing follows the table. -/
theorem mem_table_or_eq_unknown (k : Kind) : (k.code, k) ∈ table ∨ k = unknown k.code := by
  by_cases hk : k ∈ named
  · exact .inl (mem_table_iff.2 ⟨hk, rfl⟩)
  · cases k with
    | unknown c => exact .inr rfl
    | _ => exact absurd (by decide) hk

theorem ofCode_code_eq_iff : ofCode k.code = k ↔ ¬ k.IsDisguised := by
  simp only [ofCode_code_eq_self_iff, IsDisguised, mem_codes_iff]

/-- A code is read as the one kind with this code that is no operation in disguise. -/
theorem ofCode_eq_iff : ofCode c = k ↔ k.code = c ∧ ¬ k.IsDisguised := by
  constructor
  · rintro rfl
    refine ⟨code_ofCode c, ofCode_code_eq_iff.1 ?_⟩
    rw [code_ofCode]
  · rintro ⟨rfl, hk⟩
    exact ofCode_code_eq_iff.2 hk

theorem not_isDisguised_of_mem_table (h : (c, k) ∈ table) : ¬ k.IsDisguised :=
  ofCode_code_eq_iff.1 (ofCode_code_of_mem (mem_table_iff.1 h).1)

/-- Reading follows the table: a code with a row is the operation of the row, any other code is
kept as it is. -/
theorem ofCode_eq_lookup (c : UInt32) : ofCode c = (table.lookup c).getD (unknown c) := by
  rw [ofCode_eq_iff]
  cases hrow : table.lookup c with
  | none =>
    -- Without a row the bare code is no operation in disguise.
    rw [List.lookup_eq_none_iff] at hrow
    refine ⟨rfl, ?_⟩
    rintro ⟨raw, hraw, hmem⟩
    cases hraw
    obtain ⟨row, hin, heq⟩ := List.mem_map.1 hmem
    have hne := hrow row hin
    simp [heq] at hne
  | some k =>
    obtain ⟨before, after, hsplit, -⟩ := List.lookup_eq_some_iff.1 hrow
    have hin : (c, k) ∈ table := hsplit ▸ List.mem_append_right _ List.mem_cons_self
    exact ⟨(mem_table_iff.1 hin).2, not_isDisguised_of_mem_table hin⟩

end Kind

namespace Header

variable {bytes : Bytes} {h : Header}

theorem normalized_eq_self_iff : h.normalized = h ↔ ¬ h.kind.IsDisguised := by
  rw [← Kind.ofCode_code_eq_iff]
  constructor
  · exact congrArg Header.kind
  · intro hk
    rw [normalized, hk]

theorem decode_encode_eq_self_iff : decode h.encode = .ok h ↔ ¬ h.kind.IsDisguised := by
  rw [decode_encode, Except.ok.injEq, normalized_eq_self_iff]

/-- A string of 24 bytes is a header, with its fields where they stand in the string. -/
theorem exists_decode (hlen : bytes.length = headerSize) :
    ∃ h, decode bytes = .ok h ∧ h.encode = bytes ∧ h.id.bytes = Frame.idField bytes ∧
      h.kind = Frame.kindField bytes ∧ h.bodySize = Frame.sizeField bytes := by
  obtain ⟨h, hdecode, hid, hkind, hsize⟩ := Frame.exists_header (Nat.le_of_eq hlen.symm)
  rw [List.take_of_length_le (Nat.le_of_eq hlen)] at hdecode
  exact ⟨h, hdecode, encode_of_decode hdecode, hid, hkind, hsize.symm⟩

theorem not_isDisguised_of_decode (hdecode : decode bytes = .ok h) : ¬ h.kind.IsDisguised :=
  Kind.ofCode_code_eq_iff.1 (decode_eq_ok_iff.1 hdecode).2

/-! ## Writing as a bijection -/

theorem mapsTo_encode :
    Set.MapsTo encode {h | ¬ h.kind.IsDisguised} {bytes | bytes.length = headerSize} :=
  fun h _ => length_encode h

theorem injOn_encode : Set.InjOn encode {h | ¬ h.kind.IsDisguised} := by
  intro a ha b hb heq
  have hread : decode a.encode = decode b.encode := congrArg decode heq
  rw [decode_encode_eq_self_iff.2 ha, decode_encode_eq_self_iff.2 hb] at hread
  exact Except.ok.inj hread

theorem surjOn_encode :
    Set.SurjOn encode {h | ¬ h.kind.IsDisguised} {bytes | bytes.length = headerSize} := by
  intro bytes hlen
  obtain ⟨h, hdecode, hencode, -⟩ := exists_decode hlen
  exact ⟨h, not_isDisguised_of_decode hdecode, hencode⟩

/-- **Writing is a bijection** of the headers without disguise and the strings of 24 bytes. -/
theorem bijOn_encode :
    Set.BijOn encode {h | ¬ h.kind.IsDisguised} {bytes | bytes.length = headerSize} :=
  ⟨mapsTo_encode, injOn_encode, surjOn_encode⟩

/-- **Headers match their bytes.** A string of any length but 24 is refused by its length. One of 24
bytes is read as the header that is written as this string and has the fields that stand in it. What
a header is written as is read as the header with the kind that its code is read as, which is the
header itself unless its kind is a bare code that the table has a row for. Hence writing is a
bijection, of the headers whose kind is no such code and the strings of 24 bytes. Codes are read and
written by one table, and a code without a row is kept. -/
theorem headers_match_their_bytes :
    (∀ bytes : Bytes,
      (bytes.length ≠ 24 ∧ decode bytes = .error (.length bytes.length)) ∨
      (bytes.length = 24 ∧ ∃ h, decode bytes = .ok h ∧ h.encode = bytes ∧
        h.id.bytes = Frame.idField bytes ∧ h.kind = Frame.kindField bytes ∧
        h.bodySize = Frame.sizeField bytes)) ∧
    (∀ h : Header,
      decode h.encode = .ok { h with kind := .ofCode h.kind.code } ∧
      ({ h with kind := .ofCode h.kind.code } = h ↔
        ¬ ∃ c, h.kind = .unknown c ∧ c ∈ Kind.table.map Prod.fst)) ∧
    Set.BijOn encode {h | ¬ h.kind.IsDisguised} {bytes | bytes.length = 24} ∧
    (∀ c, Kind.ofCode c = (Kind.table.lookup c).getD (.unknown c)) ∧
    (∀ k : Kind, (k.code, k) ∈ Kind.table ∨ k = .unknown k.code) := by
  refine ⟨?_, ?_, bijOn_encode, Kind.ofCode_eq_lookup, Kind.mem_table_or_eq_unknown⟩
  · intro bytes
    by_cases hlen : bytes.length = headerSize
    · exact .inr ⟨hlen, exists_decode hlen⟩
    · exact .inl ⟨hlen, decode_eq_error_iff.2 ⟨hlen, rfl⟩⟩
  · intro h
    exact ⟨decode_encode h, normalized_eq_self_iff⟩

/-- A header with a bare code. -/
private def coded (code : UInt32) : Header := ⟨.ofNat 7, .unknown code, 5⟩

theorem a_bare_code_with_a_row_is_read_as_an_operation :
    decode (coded 0x0601).encode = .ok { coded 0x0601 with kind := .ping } ∧
      decode (coded 0x0600).encode = .ok (coded 0x0600) ∧
      decode ((coded 0x0600).encode ++ [0]) = .error (.length 25) := by
  obtain ⟨hstrings, hheaders, -⟩ := headers_match_their_bytes
  refine ⟨(hheaders (coded 0x0601)).1, ?_, ?_⟩
  · have hrow : ¬ ∃ c, (coded 0x0600).kind = .unknown c ∧ c ∈ Kind.table.map Prod.fst := by
      rintro ⟨c, hc, hmem⟩
      cases hc
      exact absurd hmem (by decide)
    exact (hheaders (coded 0x0600)).1.trans (congrArg Except.ok ((hheaders _).2.2 hrow))
  · obtain ⟨-, herror⟩ | ⟨hlen, -⟩ := hstrings ((coded 0x0600).encode ++ [0])
    · exact herror
    · exact absurd hlen (by decide)

end Header

end ClusterLink
