import KeyLifecycle.AccessKey
import KeyLifecycle.Proofs.Text.Base64

/-!
# The text of an access key

An access key is known by its text, and its text is read as that access key again
(`KeyLifecycle.AccessKey.ofText_text`). The check of a text knows nothing of base64. That it lets
through every text in the URL-safe alphabet, filled up or not, has to be compared character by
character (`KeyLifecycle.AccessKey.exists_ofText_encode`); a text of eighteen bytes, as it is
issued, has twenty-four characters and no filling (`AccessKey.IsTextOf`).
-/

namespace KeyLifecycle

/-- Characters of one byte each. -/
theorem utf8ByteSize_ofList {cs : List Char} (h : ∀ c ∈ cs, c.utf8Size = 1) :
    (String.ofList cs).utf8ByteSize = cs.length := by
  induction cs with
  | nil => rfl
  | cons c cs ih =>
    have hc : c.utf8Size = 1 := h c List.mem_cons_self
    have hcs := ih fun c hc => h c (List.mem_cons_of_mem _ hc)
    simp [String.ofList_cons, hc, hcs, Nat.add_comm]

namespace AccessKey

variable {key key' : AccessKey} {bytes bytes' : List UInt8}

/-! ### An access key and its text -/

/-- An access key is known by the text. -/
theorem text_inj : key.text = key'.text ↔ key = key' := by
  cases key
  cases key'
  simp

/-- What is read is the text itself. -/
theorem parse_eq_ok_iff {text : String} :
    parse text = .ok key ↔ fault? text = none ∧ key.text = text := by
  rw [parse]
  constructor
  · intro h
    split at h
    · rename_i hnone
      obtain rfl := Except.ok.inj h
      exact ⟨hnone, rfl⟩
    · cases h
  · rintro ⟨hnone, rfl⟩
    split
    · rfl
    · rename_i hsome
      cases hnone.symm.trans hsome

/-- The text of an access key is that of an access key. -/
theorem parse_text (key : AccessKey) : parse key.text = .ok key :=
  parse_eq_ok_iff.mpr ⟨key.sound, rfl⟩

/-- **Whoever is handed the text of an access key has the access key.** -/
theorem ofText_text (key : AccessKey) : ofText key.text = .ok key := by
  rw [ofText, parse_text]

/-! ### Bytes as access keys -/

open Text.Base64

/-- A symbol of the URL-safe alphabet may stand in an access key, and takes one byte. -/
theorem isAllowed_symbol {n : Nat} (h : n < 64) :
    isAllowed (Alphabet.urlSafe.symbol n) = true ∧ (Alphabet.urlSafe.symbol n).utf8Size = 1 := by
  revert n
  decide

/-- And so it is with all characters of a URL-safe text, the filling included. -/
theorem isAllowed_of_mem {c : Char} (h : c ∈ encodeChars .urlSafe bytes) :
    isAllowed c = true ∧ c.utf8Size = 1 := by
  rcases symbol_or_filling_of_mem h with ⟨n, hn, rfl⟩ | ⟨rfl, -⟩
  · exact isAllowed_symbol hn
  · decide

/-- Four bytes of text for three bytes. -/
theorem utf8ByteSize_encode (bytes : List UInt8) :
    (encode .urlSafe bytes).utf8ByteSize = (bytes.length + 2) / 3 * 4 := by
  rw [encode, utf8ByteSize_ofList fun c hc => (isAllowed_of_mem hc).2, length_encodeChars]

/-- **The text of some bytes is an access key**, unless there are none or too many. -/
theorem exists_ofText_encode (hne : bytes ≠ []) (hle : (bytes.length + 2) / 3 * 4 ≤ maxBytes) :
    ∃ key, ofText (encode .urlSafe bytes) = .ok key ∧ key.text = encode .urlSafe bytes := by
  have hsize := utf8ByteSize_encode bytes
  have hempty : (encode .urlSafe bytes).isEmpty = false := by
    have hpos := List.length_pos_of_ne_nil hne
    rw [String.isEmpty, hsize]
    simp
    omega
  have hchars : (encode .urlSafe bytes).toList.find? (!isAllowed ·) = none := by
    rw [encode, String.toList_ofList, List.find?_eq_none]
    exact fun c hc => by simp [(isAllowed_of_mem hc).1]
  have hsound : fault? (encode .urlSafe bytes) = none := by
    rw [fault?, hempty, hchars, hsize, if_neg (by simp), if_neg (by omega), Option.map_none]
  exact ⟨⟨_, hsound⟩, ofText_text ⟨_, hsound⟩, rfl⟩

/-- **An access key that is made of eighteen bytes**, and nothing else. -/
structure IsTextOf (key : AccessKey) (bytes : List UInt8) : Prop where
  length_bytes : bytes.length = 18
  text : key.text = encode .urlSafe bytes
  length_text : key.text.length = 24
  utf8ByteSize : key.text.utf8ByteSize = 24
  /-- Letters, digits, hyphens and underscores; there is no filling. -/
  isUrlSafe : ∀ c ∈ key.text.toList, IsUrlSafe c
  decodes : decode? .urlSafe key.text = some bytes
  /-- It passes the check of what is given as an access key. -/
  fault? : fault? key.text = none

/-- **A text of eighteen bytes.** -/
theorem isTextOf (hb : bytes.length = 18) (h : key.text = encode .urlSafe bytes) :
    key.IsTextOf bytes where
  length_bytes := hb
  text := h
  length_text := by rw [h, encode, String.length_ofList, length_encodeChars, hb]
  utf8ByteSize := by rw [h, utf8ByteSize_encode, hb]
  isUrlSafe c hc := by
    rw [h, encode, String.toList_ofList] at hc
    exact isUrlSafe_of_mem (by rw [hb]; decide) hc
  decodes := by rw [h, decode?_encode isReadable_urlSafe]
  fault? := key.sound

/-- **Access keys are as different as the bytes that they are made of.** -/
theorem IsTextOf.inj (h : key.IsTextOf bytes) (h' : key'.IsTextOf bytes') :
    key = key' ↔ bytes = bytes' := by
  rw [← text_inj, h.text, h'.text, encode_inj isReadable_urlSafe]

end AccessKey

end KeyLifecycle
