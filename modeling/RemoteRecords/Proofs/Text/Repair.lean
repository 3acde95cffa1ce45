import RemoteRecords.Proofs.Text.Encoding

/-!
# Ill-formed bytes

Bytes that encode a text need no repair (`lossyText_ofText`). In a repair every byte is one of the
given bytes or a byte of U+FFFD (`mem_repaired`).
-/

namespace RemoteRecords.Bytes

/-! ## Reading characters -/

theorem continuation_ofNat {pending : Pending} {number : Nat} (low : pending.low.toNat ≤ number)
    (high : number ≤ pending.high.toNat) (rest : Bytes) :
    continuation pending (UInt8.ofNat number :: rest) =
      match pending.more with
      | 0 => ([UInt8.ofNat number], true)
      | more + 1 =>
          let (taken, complete) := continuation ⟨0x80, 0xBF, more⟩ rest
          (UInt8.ofNat number :: taken, complete) := by
  have value : (UInt8.ofNat number).toNat = number := by
    have bound := pending.high.toNat_lt
    rw [UInt8.toNat_ofNat']
    omega
  have inRange : (pending.low ≤ UInt8.ofNat number && UInt8.ofNat number ≤ pending.high) =
      true := by
    rw [Bool.and_eq_true, decide_eq_true_iff, decide_eq_true_iff, UInt8.le_iff_toNat_le,
      UInt8.le_iff_toNat_le, value]
    exact ⟨low, high⟩
  refine (if_pos inRange).trans ?_
  cases pending.more <;> rfl

theorem lead_ofNat {number : Nat} (small : number < 256) :
    lead (UInt8.ofNat number) =
      if number ≤ 0x7F then some none
      else if 0xC2 ≤ number ∧ number ≤ 0xDF then some (some ⟨0x80, 0xBF, 0⟩)
      else if number = 0xE0 then some (some ⟨0xA0, 0xBF, 1⟩)
      else if number = 0xED then some (some ⟨0x80, 0x9F, 1⟩)
      else if 0xE1 ≤ number ∧ number ≤ 0xEF then some (some ⟨0x80, 0xBF, 1⟩)
      else if number = 0xF0 then some (some ⟨0x90, 0xBF, 2⟩)
      else if 0xF1 ≤ number ∧ number ≤ 0xF3 then some (some ⟨0x80, 0xBF, 2⟩)
      else if number = 0xF4 then some (some ⟨0x80, 0x8F, 2⟩)
      else none := by
  have value : (UInt8.ofNat number).toNat = number := by
    rw [UInt8.toNat_ofNat']
    omega
  simp only [lead, Bool.and_eq_true, decide_eq_true_eq, beq_iff_eq, UInt8.le_iff_toNat_le,
    ← UInt8.toNat_inj, value, UInt8.reduceToNat]

theorem continuation_tails {pending : Pending} {first : Nat} (low : pending.low.toNat ≤ first)
    (high : first ≤ pending.high.toNat) {others : List Nat} (count : others.length = pending.more)
    (tails : ∀ other ∈ others, 128 ≤ other ∧ other ≤ 191) (rest : Bytes) :
    continuation pending ((first :: others).map UInt8.ofNat ++ rest) =
      ((first :: others).map UInt8.ofNat, true) := by
  induction others generalizing pending first with
  | nil =>
      rw [List.map_singleton, List.singleton_append, continuation_ofNat low high, ← count]
      rfl
  | cons next others inductionHypothesis =>
      obtain ⟨inRange, behind⟩ := List.forall_mem_cons.1 tails
      have later := @inductionHypothesis ⟨0x80, 0xBF, others.length⟩ next inRange.1
        inRange.2 rfl behind
      rw [List.map_cons, List.cons_append, continuation_ofNat low high, ← count]
      dsimp only [List.length_cons]
      rw [later]

theorem tail_of_lead {first : UInt8} {pending : Pending} {second : Nat} (others : List Nat)
    (begins : lead first = some (some pending)) (count : others.length = pending.more)
    (low : pending.low.toNat ≤ second) (high : second ≤ pending.high.toNat)
    (tails : ∀ other ∈ others, 128 ≤ other ∧ other ≤ 191) (rest : Bytes) :
    tail first ((second :: others).map UInt8.ofNat ++ rest) =
      ((second :: others).map UInt8.ofNat, true) := by
  rw [tail, begins]
  exact continuation_tails low high count tails rest

/-- The first of three bytes asks for a range that holds the second. -/
theorem lead_three {number : Nat} (least : 2047 < number) (greatest : number ≤ 65535)
    (scalar : number < 55296 ∨ 57343 < number) :
    ∃ pending, lead (UInt8.ofNat (number / 4096 % 16 + 224)) = some (some pending) ∧
      pending.more = 1 ∧ pending.low.toNat ≤ number / 64 % 64 + 128 ∧
      number / 64 % 64 + 128 ≤ pending.high.toNat := by
  rw [lead_ofNat (by omega), if_neg (by omega), if_neg (by omega)]
  by_cases first : number / 4096 % 16 + 224 = 224
  · have low : 160 ≤ number / 64 % 64 + 128 := by omega
    have high : number / 64 % 64 + 128 ≤ 191 := by omega
    rw [if_pos first]
    exact ⟨_, rfl, rfl, low, high⟩
  · have low : 128 ≤ number / 64 % 64 + 128 := by omega
    rw [if_neg first]
    by_cases belowSurrogates : number / 4096 % 16 + 224 = 237
    · have high : number / 64 % 64 + 128 ≤ 159 := by omega
      rw [if_pos belowSurrogates]
      exact ⟨_, rfl, rfl, low, high⟩
    · have high : number / 64 % 64 + 128 ≤ 191 := by omega
      rw [if_neg belowSurrogates, if_pos (by omega)]
      exact ⟨_, rfl, rfl, low, high⟩

theorem lead_four {number : Nat} (least : 65535 < number) (greatest : number < 1114112) :
    ∃ pending, lead (UInt8.ofNat (number / 262144 % 8 + 240)) = some (some pending) ∧
      pending.more = 2 ∧ pending.low.toNat ≤ number / 4096 % 64 + 128 ∧
      number / 4096 % 64 + 128 ≤ pending.high.toNat := by
  rw [lead_ofNat (by omega), if_neg (by omega), if_neg (by omega), if_neg (by omega),
    if_neg (by omega), if_neg (by omega)]
  by_cases first : number / 262144 % 8 + 240 = 240
  · have low : 144 ≤ number / 4096 % 64 + 128 := by omega
    have high : number / 4096 % 64 + 128 ≤ 191 := by omega
    rw [if_pos first]
    exact ⟨_, rfl, rfl, low, high⟩
  · have low : 128 ≤ number / 4096 % 64 + 128 := by omega
    rw [if_neg first]
    by_cases last : number / 262144 % 8 + 240 = 244
    · have high : number / 4096 % 64 + 128 ≤ 143 := by omega
      rw [if_neg (by omega), if_pos last]
      exact ⟨_, rfl, rfl, low, high⟩
    · have high : number / 4096 % 64 + 128 ≤ 191 := by omega
      rw [if_pos (by omega)]
      exact ⟨_, rfl, rfl, low, high⟩

/-- A character is read from its bytes, whatever follows them. -/
theorem tail_utf8EncodeChar (c : Char) (rest : Bytes) :
    ∃ first others, String.utf8EncodeChar c = first :: others ∧
      tail first (others ++ rest) = (others, true) := by
  have scalar : c.val.toNat < 55296 ∨ 57343 < c.val.toNat ∧ c.val.toNat < 1114112 := c.valid
  simp only [String.utf8EncodeChar]
  generalize c.val.toNat = number at scalar ⊢
  have inRange (number : Nat) : 128 ≤ number % 64 + 128 ∧ number % 64 + 128 ≤ 191 := by omega
  split
  · next one =>
      refine ⟨_, [], rfl, ?_⟩
      rw [tail, lead_ofNat (by omega), if_pos one]
  · split
    · next two =>
        have begins : lead (UInt8.ofNat (number / 64 % 32 + 192)) =
            some (some ⟨0x80, 0xBF, 0⟩) := by
          rw [lead_ofNat (by omega), if_neg (by omega), if_pos (by omega)]
        have read := tail_of_lead [] begins rfl (inRange number).1 (inRange number).2 nofun rest
        exact ⟨_, _, rfl, read⟩
    · split
      · next three =>
          obtain ⟨pending, begins, more, low, high⟩ :=
            lead_three (by omega) three (scalar.imp_right And.left)
          have tails : ∀ other ∈ [number % 64 + 128], 128 ≤ other ∧ other ≤ 191 :=
            List.forall_mem_singleton.2 (inRange number)
          have read := tail_of_lead [number % 64 + 128] begins more.symm low high tails rest
          exact ⟨_, _, rfl, read⟩
      · next four =>
          obtain ⟨pending, begins, more, low, high⟩ := @lead_four number (by omega) (by omega)
          have tails : ∀ other ∈ [number / 64 % 64 + 128, number % 64 + 128],
              128 ≤ other ∧ other ≤ 191 :=
            List.forall_mem_cons.2 ⟨inRange _, List.forall_mem_singleton.2 (inRange number)⟩
          have read := tail_of_lead [number / 64 % 64 + 128, number % 64 + 128] begins more.symm
            low high tails rest
          exact ⟨_, _, rfl, read⟩

/-! ## Well-formed bytes -/

/-- Well-formed bytes need no repair. -/
theorem repaired_encoding (chars : List Char) : repaired (encoding chars) = encoding chars := by
  induction chars with
  | nil => rw [encoding, List.flatMap_nil, repaired]
  | cons c chars inductionHypothesis =>
      obtain ⟨first, others, bytes, read⟩ := tail_utf8EncodeChar c (encoding chars)
      rw [encoding_cons, bytes, List.cons_append, repaired, read]
      dsimp only
      rw [List.drop_left, inductionHypothesis, if_pos rfl, List.cons_append]

theorem lossyText_ofText (text : String) : (ofText text).lossyText = text := by
  rw [lossyText, ofText_eq_encoding, repaired_encoding, ← ofText_eq_encoding, text?_ofText]
  rfl

theorem ofText_of_text? {bytes : Bytes} {text : String} (read : bytes.text? = some text) :
    ofText text = bytes := by
  rw [text?, String.fromUTF8?] at read
  split at read
  · next valid =>
      cases read
      have encoded : (ofText (String.fromUTF8 bytes.toByteArray valid)).toByteArray =
          bytes.toByteArray := String.utf8Encode_toList
      have lists := congrArg (fun array => array.data.toList) encoded
      simpa using lists
  · cases read

/-! ## Bytes of a repair -/

theorem continuation_isPrefix (pending : Pending) (bytes : Bytes) :
    (continuation pending bytes).1 <+: bytes := by
  induction bytes generalizing pending with
  | nil => exact List.nil_prefix
  | cons byte bytes inductionHypothesis =>
      rw [continuation]
      split
      · split
        · exact List.cons_prefix_cons.2 ⟨rfl, List.nil_prefix⟩
        · exact List.cons_prefix_cons.2 ⟨rfl, inductionHypothesis _⟩
      · exact List.nil_prefix

theorem tail_isPrefix (byte : UInt8) (rest : Bytes) : (tail byte rest).1 <+: rest := by
  rw [tail]
  split
  · exact List.nil_prefix
  · exact List.nil_prefix
  · exact continuation_isPrefix _ rest

/-- A repair brings in no other character than U+FFFD. -/
theorem mem_repaired {bytes : Bytes} {byte : UInt8} (member : byte ∈ repaired bytes) :
    byte ∈ bytes ∨ byte ∈ String.utf8EncodeChar '\uFFFD' := by
  induction bytes using repaired.induct with
  | case1 =>
      rw [repaired] at member
      exact .inl member
  | case2 first rest taken complete read inductionHypothesis =>
      have front : taken <+: rest := by
        have front := tail_isPrefix first rest
        rwa [read] at front
      rw [repaired, read] at member
      dsimp only at member
      rcases List.mem_append.1 member with begun | later
      · cases complete with
        | true =>
            rw [if_pos rfl] at begun
            exact .inl (List.cons_subset_cons first front.subset begun)
        | false => exact .inr begun
      · rcases inductionHypothesis later with kept | added
        · exact .inl (List.mem_cons_of_mem first (List.mem_of_mem_drop kept))
        · exact .inr added

theorem mem_of_mem_lossyText {bytes : Bytes} {byte : UInt8}
    (member : byte ∈ ofText bytes.lossyText) : byte ∈ repaired bytes := by
  rw [lossyText] at member
  cases read : text? (repaired bytes) with
  | none =>
      rw [read] at member
      cases member
  | some text =>
      rw [read, Option.getD_some, ofText_of_text? read] at member
      exact member

end RemoteRecords.Bytes
