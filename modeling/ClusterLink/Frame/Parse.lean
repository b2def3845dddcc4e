import ClusterLink.Frame.Error
import ClusterLink.Message.Basic
/-!
# Frames in a byte string

`Frame.parse` takes the first frame off a byte string that is already there in full, and
`Frame.parseAll` takes off as many as there are. Both say what reading a stream must come to,
however the stream delivers its bytes (`ClusterLink.Frame.Reader`).

Results:
* `parse_encode_append`: a written message is read back, and nothing behind it is touched.
* `length_parse_snd`: what is left after a frame is shorter by at least a header.
-/

namespace ClusterLink.Frame

/-- The message that a header and a body of the announced size make. -/
def assemble (h : Header) (body : Bytes) (hlen : body.length = h.bodySize.toNat) : Message where
  id := h.id
  kind := h.kind
  body := body
  fits := by rw [hlen]; exact h.bodySize.toNat_lt

/-- The first frame of a byte string, and the bytes behind it. A frame that is refused for its size
leaves its body unread; one that is cut short leaves nothing. -/
def parse (bytes : Bytes) : Except FrameError Message × Bytes :=
  if bytes = [] then (.error .ended, [])
  else match Header.decode (bytes.take headerSize) with
    | .error e => (.error (.header e), [])
    | .ok h =>
      let rest := bytes.drop headerSize
      if maxBodySize < h.bodySize then (.error (.oversized h.bodySize), rest)
      else if hlen : h.bodySize.toNat ≤ rest.length then
        (.ok (assemble h (rest.take h.bodySize.toNat) (by simp [hlen])), rest.drop h.bodySize.toNat)
      else (.error (.shortBody h.bodySize rest.length), [])

theorem length_parse_snd {bytes rest : Bytes} {m : Message} (h : parse bytes = (.ok m, rest)) :
    rest.length + headerSize ≤ bytes.length := by
  simp only [parse] at h
  split at h
  · cases h
  split at h
  · cases h
  next hd hdec =>
  have hlen : (bytes.take headerSize).length = headerSize := by
    rw [← Header.encode_of_decode hdec, Header.length_encode]
  split at h
  · cases h
  split at h
  · simp only [Prod.mk.injEq] at h
    rw [← h.2]
    simp only [List.length_take, List.length_drop] at hlen ⊢
    omega
  · cases h

/-- All whole frames at the front of a byte string, why there is no further one, and the bytes
that are left then. -/
def parseAll (bytes : Bytes) : List Message × FrameError × Bytes :=
  match _hp : parse bytes with
  | (.error e, rest) => ([], e, rest)
  | (.ok m, rest) =>
    let more := parseAll rest
    (m :: more.1, more.2)
termination_by bytes.length
decreasing_by
  have := length_parse_snd _hp
  simp only [headerSize] at this
  omega

theorem parse_encode_append (m : Message) (rest : Bytes) :
    parse (m.encode ++ rest) =
      if maxBodySize.toNat < m.body.length then
        (.error (.oversized m.header.bodySize), m.body ++ rest)
      else (.ok m.normalized, rest) := by
  have hsize := m.toNat_bodySize_header
  have hne : m.encode ++ rest ≠ [] := by
    intro h
    have := congrArg List.length h
    simp [headerSize] at this
  have htake : (m.encode ++ rest).take headerSize = m.header.encode := by
    rw [Message.encode, List.append_assoc, List.take_left' (by simp)]
  have hdrop : (m.encode ++ rest).drop headerSize = m.body ++ rest := by
    rw [Message.encode, List.append_assoc, List.drop_left' (by simp)]
  simp only [parse, if_neg hne, htake, Header.decode_encode, hdrop]
  have hlt : maxBodySize < m.header.normalized.bodySize ↔ maxBodySize.toNat < m.body.length := by
    rw [UInt32.lt_iff_toNat_lt, show m.header.normalized.bodySize = m.header.bodySize from rfl,
      hsize]
  by_cases hbig : maxBodySize.toNat < m.body.length
  · rw [if_pos (hlt.2 hbig), if_pos hbig]
    rfl
  · rw [if_neg (fun h => hbig (hlt.1 h)), if_neg hbig]
    have hs : m.header.normalized.bodySize.toNat = m.body.length := hsize
    rw [dif_pos (by rw [hs]; simp)]
    simp only [assemble, Prod.mk.injEq, Except.ok.injEq]
    refine ⟨?_, by rw [hs]; simp⟩
    simp only [Message.normalized, Message.mk.injEq]
    refine ⟨rfl, rfl, ?_⟩
    rw [hs]; simp

end ClusterLink.Frame
