import Ros2Serial.Wire.Decoder
import Mathlib.Algebra.Group.Nat.Even

/-!
# The search for the next frame

A decoder between two frames looks for the pair `ff fe`.  This module follows
the search through bytes that are no frame, through frames, and through headers
whose length has a wrong checksum.

The search takes bytes in pairs once it has seen an `ff`: the second byte of a
pair that is not `fe` is dropped even if it is an `ff` itself.  So what a decoder
is about to do behind bytes without the pair depends on how many `ff` they end
with (`feed_noise`), and a frame behind them is found if their number is even
(`frames_noise`).

Decoders that differ in the order of their tests agree as long as the search
meets no wrong checksum of a length, and not beyond it (`agree_iff`).
-/

namespace Ros2Serial.Wire

/-! ## Parts of a frame -/

section Feed

variable (policy : Policy) {pos start : Nat}

/-- A decoder reads the bytes. -/
def Policy.feed (d : Decoder) (bytes : List UInt8) : Decoder × List Report :=
  policy.decoder.run d (bytes.map some)

@[simp] theorem Policy.feed_nil (d : Decoder) : policy.feed d [] = (d, []) := rfl

theorem Policy.feed_cons (d : Decoder) (b : UInt8) (bytes : List UInt8) :
    policy.feed d (b :: bytes) =
      ((policy.feed (policy.read d b).1 bytes).1,
        (policy.read d b).2 ++ (policy.feed (policy.read d b).1 bytes).2) := rfl

theorem Policy.feed_append (d : Decoder) (xs ys : List UInt8) :
    policy.feed d (xs ++ ys) =
      ((policy.feed (policy.feed d xs).1 ys).1,
        (policy.feed d xs).2 ++ (policy.feed (policy.feed d xs).1 ys).2) := by
  have hfinal := policy.decoder.final_append d (xs.map some) (ys.map some)
  have houtput := policy.decoder.output_append d (xs.map some) (ys.map some)
  rw [← List.map_append] at hfinal houtput
  exact Prod.ext hfinal houtput

/-- The pair that starts a frame. -/
theorem Policy.feed_sync :
    policy.feed (searching pos start) [0xff, 0xfe] = (⟨pos + 2, pos, .sizeL⟩, []) := rfl

/-- A header with a good checksum, behind the pair. -/
theorem Policy.feed_header (l h t t' : UInt8) (pos start : Nat) :
    policy.feed ⟨pos, start, .sizeL⟩ [l, h, wordChecksum l h, t, t'] =
      (⟨pos + 5, start, policy.afterHeader (word t t') (word l h)⟩, []) := by
  simp [Policy.feed_cons, Policy.read]

/-- The first bytes of a payload. -/
theorem Policy.feed_payload {topic length : Nat} (done bytes : List UInt8)
    (h : done.length + bytes.length ≤ length) :
    policy.feed ⟨pos, start, .body topic length done⟩ bytes =
      (⟨pos + bytes.length, start, .body topic length (done ++ bytes)⟩, []) := by
  induction bytes generalizing pos done with
  | nil => simp
  | cons b bytes ih =>
    rw [List.length_cons] at h
    have hroom : done.length < length := by omega
    rw [Policy.feed_cons]
    simp only [Policy.read, if_pos hroom]
    rw [ih (done ++ [b]) (by rw [List.length_append, List.length_singleton]; omega)]
    simp only [List.append_assoc, List.singleton_append, List.length_cons, List.nil_append]
    rw [Nat.add_assoc pos 1, Nat.add_comm 1]

/-- A payload, and the byte behind it. -/
theorem Policy.feed_body (topic : Nat) (payload : List UInt8) (b : UInt8) (pos start : Nat) :
    policy.feed ⟨pos, start, .body topic payload.length []⟩ (payload ++ [b]) =
      (searching (pos + payload.length + 1) start,
        if b = messageChecksum topic payload then
          [.frame ⟨start, pos + payload.length + 1, topic, payload⟩]
        else []) := by
  rw [Policy.feed_append, policy.feed_payload [] payload (by simp)]
  simp [Policy.feed_cons, Policy.read, searching]

/-- The bytes behind `ff fe` in a frame. -/
theorem header_drop {topic length : Nat} :
    (header topic length).drop 2 = [lo length, hi length, wordChecksum (lo length) (hi length),
      lo topic, hi topic] := rfl

/-- The seven bytes in front of a payload that the decoder reads. -/
theorem Policy.feed_start {topic length : Nat} (htopic : topic < 65536) (hlength : length < 65536)
    (hread : policy.verdict topic length = .read) :
    policy.feed (searching pos start) (header topic length) =
      (⟨pos + 7, pos, .body topic length []⟩, []) := by
  have hsplit : header topic length = [0xff, 0xfe] ++ (header topic length).drop 2 := rfl
  rw [hsplit, Policy.feed_append, Policy.feed_sync, header_drop, Policy.feed_header,
    word_lo_hi htopic, word_lo_hi hlength, Policy.afterHeader, hread]
  rfl

/-- A header that the decoder reads, and the bytes that it announces: a frame, or one with a
wrong checksum. -/
theorem Policy.feed_message {topic : Nat} {payload : List UInt8} (htopic : topic < 65536)
    (hlength : payload.length < 65536) (hread : policy.verdict topic payload.length = .read)
    (b : UInt8) :
    policy.feed (searching pos start) (header topic payload.length ++ (payload ++ [b])) =
      (searching (pos + (payload.length + 8)) pos,
        if b = messageChecksum topic payload then
          [.frame ⟨pos, pos + (payload.length + 8), topic, payload⟩]
        else []) := by
  rw [Policy.feed_append, policy.feed_start htopic hlength hread, Policy.feed_body]
  have hpos : pos + 7 + payload.length + 1 = pos + (payload.length + 8) := by omega
  simp only [List.nil_append, hpos]

/-- A frame that the decoder reads. -/
theorem Policy.feed_encode {topic : Nat} {payload : List UInt8} (htopic : topic < 65536)
    (hlength : payload.length < 65536) (hread : policy.verdict topic payload.length = .read)
    (pos start : Nat) :
    policy.feed (searching pos start) (encode topic payload) =
      (searching (pos + (payload.length + 8)) pos,
        [.frame ⟨pos, pos + (payload.length + 8), topic, payload⟩]) := by
  rw [encode, List.append_assoc, policy.feed_message htopic hlength hread, if_pos rfl]

/-- Frames, one behind the other. -/
theorem Policy.feed_encodeAll {messages : List (Nat × List UInt8)}
    (h : ∀ message ∈ messages, message.1 < 65536 ∧ message.2.length < 65536 ∧
      policy.verdict message.1 message.2.length = .read) (pos start : Nat) :
    frames (policy.feed (searching pos start) (encodeAll messages)).2 = messages := by
  induction messages generalizing pos start with
  | nil => rfl
  | cons message messages ih =>
    obtain ⟨htopic, hlength, hread⟩ := h message List.mem_cons_self
    rw [encodeAll_cons, Policy.feed_append, policy.feed_encode htopic hlength hread, frames_append,
      ih fun m hm => h m (List.mem_cons_of_mem _ hm)]
    rfl

/-- Less than a header reports nothing, where the topic id is read first. -/
theorem Policy.feed_partial_header (hlate : policy.topicFirst = true) {bytes : List UInt8}
    (h : bytes.length < 5) : (policy.feed ⟨pos, start, .sizeL⟩ bytes).2 = [] := by
  rcases bytes with _ | ⟨l, _ | ⟨h', _ | ⟨c, _ | ⟨t, _ | ⟨t', bytes⟩⟩⟩⟩⟩
  case cons.cons.cons.cons.cons => simp only [List.length_cons] at h; omega
  all_goals simp [Policy.feed_cons, Policy.read, hlate]

/-- A decoder that has halted reports nothing more. -/
theorem Policy.feed_halted (bytes : List UInt8) :
    (policy.feed ⟨pos, start, .halted⟩ bytes).2 = [] := by
  induction bytes generalizing pos with
  | nil => rfl
  | cons b bytes ih =>
    rw [Policy.feed_cons]
    exact ih

end Feed

/-! ## Bytes without the pair -/

/-- The number of `ff` at the end. -/
def trailing (noise : List UInt8) : Nat := (noise.reverse.takeWhile (· = 0xff)).length

theorem trailing_snoc (noise : List UInt8) (b : UInt8) :
    trailing (noise ++ [b]) = if b = 0xff then trailing noise + 1 else 0 := by
  rw [trailing, List.reverse_append, List.reverse_singleton, List.singleton_append,
    List.takeWhile_cons]
  by_cases hb : b = 0xff
  · simp [hb, trailing]
  · simp [hb]

/-- Where the bytes end with `ff`, the number of them is not 0. -/
theorem exists_snoc_of_trailing (noise : List UInt8) (h : trailing noise ≠ 0) :
    ∃ before, noise = before ++ [0xff] := by
  induction noise using List.reverseRecOn with
  | nil => exact absurd rfl h
  | append_singleton before b _ =>
    rw [trailing_snoc] at h
    by_cases hb : b = 0xff
    · exact ⟨before, by rw [hb]⟩
    · rw [if_neg hb] at h
      exact absurd rfl h

section Noise

variable (policy : Policy) {noise : List UInt8}

/-- Behind bytes without the pair, a decoder is between two frames, or it has seen the first
byte of a pair, according to the parity of the `ff`s at their end. -/
theorem Policy.feed_noise (h : ¬ [0xff, 0xfe] <:+: noise) (pos start : Nat) :
    ∃ start',
      policy.feed (searching pos start) noise =
        (⟨pos + noise.length, start', if Even (trailing noise) then .first else .second⟩, []) := by
  induction noise using List.reverseRecOn with
  | nil => exact ⟨start, rfl⟩
  | append_singleton noise b ih =>
    have hbefore : ¬ [0xff, 0xfe] <:+: noise := fun hin =>
      h (hin.trans (List.prefix_append noise [b]).isInfix)
    obtain ⟨start', hfeed⟩ := ih hbefore
    rw [Policy.feed_append, hfeed, Policy.feed_cons, trailing_snoc, List.length_append,
      List.length_singleton]
    by_cases heven : Even (trailing noise)
    · rw [if_pos heven]
      by_cases hb : b = 0xff
      · refine ⟨pos + noise.length, ?_⟩
        simp [Policy.read, hb, heven, Nat.even_add_one, Nat.add_assoc]
      · refine ⟨start', ?_⟩
        simp [Policy.read, hb, Nat.add_assoc]
    · rw [if_neg heven]
      have hne : b ≠ 0xfe := by
        intro heq
        subst heq
        obtain ⟨before, rfl⟩ := exists_snoc_of_trailing noise (by
          intro hzero
          rw [hzero] at heven
          exact heven Even.zero)
        exact h ⟨before, [], by simp⟩
      refine ⟨start', ?_⟩
      by_cases hb : b = 0xff
      · simp [Policy.read, hb, heven, Nat.even_add_one, Nat.add_assoc]
      · simp [Policy.read, hb, hne, Nat.add_assoc]

/-- The frames that are reported from bytes are no longer than they are. -/
theorem Policy.frames_length_le {bytes : List UInt8} {frame : Nat × List UInt8}
    {pos start : Nat} (h : frame ∈ frames (policy.feed (searching pos start) bytes).2) :
    frame.2.length + 8 ≤ bytes.length := by
  obtain ⟨dispatch, hdispatch, rfl⟩ := List.mem_map.mp h
  have hgenuine := genuine policy pos start (bytes.map some)
  have hencoded := (hgenuine.encoded dispatch hdispatch).le_length
  rw [encode_length, bytesOf_map_some] at hencoded
  exact hencoded

/-- A frame behind bytes without the pair is the only one that is reported if their last
`ff`s are even in number.  Otherwise it is lost, and what is reported is shorter. -/
theorem Policy.frames_noise {topic : Nat} {payload : List UInt8}
    (hnoise : ¬ [0xff, 0xfe] <:+: noise) (htopic : topic < 65536)
    (hlength : payload.length < 65536) (hread : policy.verdict topic payload.length = .read)
    (pos start : Nat) :
    if Even (trailing noise) then
      frames (policy.feed (searching pos start) (noise ++ encode topic payload)).2 =
        [(topic, payload)]
    else
      ∀ frame ∈ frames (policy.feed (searching pos start) (noise ++ encode topic payload)).2,
        frame.2.length < payload.length := by
  obtain ⟨start', hfeed⟩ := policy.feed_noise hnoise pos start
  rw [Policy.feed_append, hfeed]
  by_cases heven : Even (trailing noise)
  · rw [if_pos heven, if_pos heven]
    have hencode := policy.feed_encode htopic hlength hread (pos + noise.length) start'
    rw [searching] at hencode
    rw [hencode]
    rfl
  · rw [if_neg heven, if_neg heven]
    -- the first byte of the frame is taken for the second of a pair
    have hsplit : encode topic payload =
        0xff :: ((header topic payload.length).drop 1 ++ body topic payload) := by
      simp [encode, header, body]
    rw [hsplit, Policy.feed_cons]
    intro frame hmem
    have hle := policy.frames_length_le hmem
    have hlen := congrArg List.length hsplit
    rw [encode_length, List.length_cons] at hlen
    omega

end Noise

/-! ## Wrong checksums of a length -/

/-- The search through the stream gets to the rest of it, past bytes that are no frame and
past headers with a good checksum of the length, with the bytes that they announce. -/
inductive Searched : List UInt8 → List UInt8 → Prop
  | here (rest : List UInt8) : Searched rest rest
  | skip {b : UInt8} {stream rest : List UInt8} (hb : b ≠ 0xff) (h : Searched stream rest) :
      Searched (b :: stream) rest
  | pair {b : UInt8} {stream rest : List UInt8} (hb : b ≠ 0xfe) (h : Searched stream rest) :
      Searched (0xff :: b :: stream) rest
  | message {topic : Nat} {payload stream rest : List UInt8} {b : UInt8} (htopic : topic < 65536)
      (hlength : payload.length < 65536) (h : Searched stream rest) :
      Searched (header topic payload.length ++ (payload ++ [b]) ++ stream) rest

/-- The bytes are a header whose length has a wrong checksum. -/
def BadLength (stream : List UInt8) : Prop :=
  ∃ l h c more, stream = 0xff :: 0xfe :: l :: h :: c :: more ∧ c ≠ wordChecksum l h

/-- The search meets a header whose length has a wrong checksum. -/
def MeetsBadLength (stream : List UInt8) : Prop := ∃ rest, Searched stream rest ∧ BadLength rest

/-- The decoder reads on behind every header with a good checksum of the length that there
is anywhere in the stream. -/
def Policy.ReadsAll (policy : Policy) (stream : List UInt8) : Prop :=
  ∀ topic length, topic < 65536 → length < 65536 → header topic length <:+: stream →
    policy.verdict topic length = .read

section Agree

variable {policy : Policy} {stream rest : List UInt8}

theorem Policy.ReadsAll.part (h : policy.ReadsAll stream) (hin : rest <:+: stream) :
    policy.ReadsAll rest :=
  fun topic length htopic hlength hheader => h topic length htopic hlength (hheader.trans hin)

/-- The way to the rest of the stream is the same for all decoders that read every message,
and on it they report no wrong checksum of a length. -/
theorem Searched.feed (h : Searched stream rest) (pos start : Nat) :
    ∃ reports pos' start', resumes reports = [] ∧ rest <:+: stream ∧
      ∀ policy : Policy, policy.ReadsAll stream →
        (policy.feed (searching pos start) stream).2 =
          reports ++ (policy.feed (searching pos' start') rest).2 := by
  induction h generalizing pos start with
  | here rest => exact ⟨[], pos, start, rfl, List.infix_rfl, fun _ _ => rfl⟩
  | @skip b stream rest hb _ ih =>
    obtain ⟨reports, pos', start', hresumes, hin, hfeed⟩ := ih (pos + 1) start
    have htail : stream <:+: b :: stream := (List.suffix_cons b stream).isInfix
    refine ⟨reports, pos', start', hresumes, hin.trans htail, fun policy hreads => ?_⟩
    rw [← hfeed policy (hreads.part htail), Policy.feed_cons]
    simp [Policy.read, searching, hb]
  | @pair b stream rest hb _ ih =>
    obtain ⟨reports, pos', start', hresumes, hin, hfeed⟩ := ih (pos + 2) pos
    have htail : stream <:+: 0xff :: b :: stream :=
      ((List.suffix_cons b stream).trans (List.suffix_cons 0xff _)).isInfix
    refine ⟨reports, pos', start', hresumes, hin.trans htail, fun policy hreads => ?_⟩
    rw [← hfeed policy (hreads.part htail), Policy.feed_cons, Policy.feed_cons]
    simp [Policy.read, searching, hb]
  | @message topic payload stream rest b htopic hlength _ ih =>
    obtain ⟨reports, pos', start', hresumes, hin, hfeed⟩ :=
      ih (pos + (payload.length + 8)) pos
    have htail : stream <:+: header topic payload.length ++ (payload ++ [b]) ++ stream :=
      (List.suffix_append _ stream).isInfix
    have hheader : header topic payload.length <:+:
        header topic payload.length ++ (payload ++ [b]) ++ stream := by
      rw [List.append_assoc]
      exact (List.prefix_append _ _).isInfix
    refine ⟨(if b = messageChecksum topic payload then
      [.frame ⟨pos, pos + (payload.length + 8), topic, payload⟩] else []) ++ reports,
      pos', start', ?_, hin.trans htail, fun policy hreads => ?_⟩
    · rw [resumes_append, hresumes]
      split <;> rfl
    · rw [Policy.feed_append,
        policy.feed_message htopic hlength (hreads topic _ htopic hlength hheader)]
      dsimp only
      rw [hfeed policy (hreads.part htail), List.append_assoc]

/-- A decoder that tests the checksum first reports it at once. -/
theorem Policy.feed_badLength_early (hearly : policy.topicFirst = false) {l h c : UInt8}
    (hc : c ≠ wordChecksum l h) (pos start : Nat) (more : List UInt8) :
    ∃ reports, (policy.feed (searching pos start) (0xff :: 0xfe :: l :: h :: c :: more)).2 =
      .badLength (pos + 5) :: reports := by
  refine ⟨(policy.feed (searching (pos + 5) pos) more).2, ?_⟩
  simp [Policy.feed_cons, Policy.read, searching, hearly, hc]

/-- A decoder that reads the topic id first reports it two bytes later, if they are there. -/
theorem Policy.feed_badLength_late (hlate : policy.topicFirst = true) {l h c : UInt8}
    (hc : c ≠ wordChecksum l h) (pos start : Nat) (more : List UInt8) :
    (policy.feed (searching pos start) (0xff :: 0xfe :: l :: h :: c :: more)).2 = [] ∨
      ∃ reports, (policy.feed (searching pos start) (0xff :: 0xfe :: l :: h :: c :: more)).2 =
        .badLength (pos + 7) :: reports := by
  rcases more with _ | ⟨t, _ | ⟨t', more⟩⟩
  · left
    simp [Policy.feed_cons, Policy.read, searching, hlate]
  · left
    simp [Policy.feed_cons, Policy.read, searching, hlate]
  · right
    refine ⟨(policy.feed (searching (pos + 7) pos) more).2, ?_⟩
    simp [Policy.feed_cons, Policy.read, searching, hlate, hc]

/-- The beginning of a header with a good checksum of the length and of the payload that it
announces. -/
def Unfinished (stream : List UInt8) : Prop :=
  ∃ topic payload, topic < 65536 ∧ payload.length < 65536 ∧
    stream <+: header topic payload.length ++ payload

theorem unfinished_of_start (l h t t' : UInt8)
    (hpre : stream <+: [0xff, 0xfe, l, h, wordChecksum l h, t, t']) : Unfinished stream := by
  refine ⟨word t t', List.replicate (word l h) 0, word_lt t t', ?_, ?_⟩
  · rw [List.length_replicate]
    exact word_lt l h
  · rw [List.length_replicate, header_word]
    exact hpre.trans (List.prefix_append _ _)

/-- Nothing is reported before a message is complete. -/
theorem Unfinished.feed (hun : Unfinished stream) (hreads : policy.ReadsAll stream)
    (pos start : Nat) : (policy.feed (searching pos start) stream).2 = [] := by
  obtain ⟨topic, payload, htopic, hlength, hpre⟩ := hun
  rcases Nat.lt_or_ge stream.length 7 with hshort | hlong
  · -- the header is not complete, and no policy has a say
    obtain ⟨more, hmore⟩ : stream <+: header topic payload.length :=
      List.prefix_of_prefix_length_le hpre (List.prefix_append _ _) (by
        rw [header_length]
        omega)
    have hsplit : header topic payload.length =
        [0xff, 0xfe] ++ (header topic payload.length).drop 2 := rfl
    have hquiet : (policy.feed (searching pos start) (stream ++ more)).2 = [] := by
      rw [hmore, hsplit, Policy.feed_append, Policy.feed_sync, header_drop, Policy.feed_header]
      rfl
    rw [Policy.feed_append] at hquiet
    exact (List.append_eq_nil_iff.mp hquiet).1
  · have hheader : header topic payload.length <+: stream :=
      List.prefix_of_prefix_length_le (List.prefix_append _ _) hpre (by
        rw [header_length]
        exact hlong)
    obtain ⟨more, hmore⟩ := hpre
    have hquiet : (policy.feed (searching pos start) (stream ++ more)).2 = [] := by
      rw [hmore, Policy.feed_append, policy.feed_start htopic hlength
        (hreads topic _ htopic hlength hheader.isInfix), policy.feed_payload [] payload (by simp)]
      rfl
    rw [Policy.feed_append] at hquiet
    exact (List.append_eq_nil_iff.mp hquiet).1

/-- The search ends with a wrong checksum of a length, or with a message that is not
complete. -/
theorem exists_searched (stream : List UInt8) :
    ∃ rest, Searched stream rest ∧ (BadLength rest ∨ Unfinished rest) := by
  induction hlen : stream.length using Nat.strongRecOn generalizing stream with
  | _ n ih =>
    subst hlen
    rcases stream with _ | ⟨b, stream⟩
    · exact ⟨[], .here _, Or.inr (unfinished_of_start 0 0 0 0 List.nil_prefix)⟩
    by_cases hfirst : b = 0xff
    swap
    · obtain ⟨rest, hsearched, hrest⟩ := ih stream.length (by simp) stream rfl
      exact ⟨rest, .skip hfirst hsearched, hrest⟩
    subst hfirst
    rcases stream with _ | ⟨b, stream⟩
    · exact ⟨_, .here _, Or.inr (unfinished_of_start 0 0 0 0 ⟨_, rfl⟩)⟩
    by_cases hsecond : b = 0xfe
    swap
    · obtain ⟨rest, hsearched, hrest⟩ := ih stream.length (by
        simp only [List.length_cons]
        omega) stream rfl
      exact ⟨rest, .pair hsecond hsearched, hrest⟩
    subst hsecond
    rcases stream with _ | ⟨l, _ | ⟨h, _ | ⟨c, stream⟩⟩⟩
    · exact ⟨_, .here _, Or.inr (unfinished_of_start 0 0 0 0 ⟨_, rfl⟩)⟩
    · exact ⟨_, .here _, Or.inr (unfinished_of_start l 0 0 0 ⟨_, rfl⟩)⟩
    · exact ⟨_, .here _, Or.inr (unfinished_of_start l h 0 0 ⟨_, rfl⟩)⟩
    by_cases hc : c = wordChecksum l h
    swap
    · exact ⟨_, .here _, Or.inl ⟨l, h, c, stream, rfl, hc⟩⟩
    subst hc
    rcases stream with _ | ⟨t, _ | ⟨t', stream⟩⟩
    · exact ⟨_, .here _, Or.inr (unfinished_of_start l h 0 0 ⟨_, rfl⟩)⟩
    · exact ⟨_, .here _, Or.inr (unfinished_of_start l h t 0 ⟨_, rfl⟩)⟩
    have hheader := header_word l h t t'
    rcases Nat.lt_or_ge (word l h) stream.length with hfull | hshort
    · -- the message is complete
      have hpayload : (stream.take (word l h)).length = word l h := by
        rw [List.length_take]
        omega
      have hsplit : 0xff :: 0xfe :: l :: h :: wordChecksum l h :: t :: t' :: stream =
          header (word t t') (stream.take (word l h)).length ++
            (stream.take (word l h) ++ [stream[word l h]]) ++ stream.drop (word l h + 1) := by
        rw [hpayload, hheader, ← List.take_succ_eq_append_getElem hfull, List.append_assoc,
          List.take_append_drop]
        rfl
      obtain ⟨rest, hsearched, hrest⟩ := ih (stream.drop (word l h + 1)).length (by
        simp only [List.length_drop, List.length_cons]
        omega) _ rfl
      refine ⟨rest, ?_, hrest⟩
      rw [hsplit]
      exact .message (word_lt t t') (by rw [hpayload]; exact word_lt l h) hsearched
    · have hlength : (stream ++ List.replicate (word l h - stream.length) 0).length =
          word l h := by
        rw [List.length_append, List.length_replicate]
        omega
      refine ⟨_, .here _, Or.inr ⟨word t t', stream ++ List.replicate (word l h - stream.length) 0,
        word_lt t t', by rw [hlength]; exact word_lt l h, ?_⟩⟩
      rw [hlength, hheader]
      exact ⟨List.replicate (word l h - stream.length) 0, by simp⟩

/-- Two decoders that read every message, of which one tests the checksum of the length
first and the other reads the topic id first, report the same frames and go on at the same
positions if and only if the search meets no wrong checksum of a length. -/
theorem agree_iff (early late : Policy) (hearly : early.topicFirst = false)
    (hlate : late.topicFirst = true) (hreads : early.ReadsAll stream)
    (hreads' : late.ReadsAll stream) (pos start : Nat) :
    frames (early.feed (searching pos start) stream).2 =
          frames (late.feed (searching pos start) stream).2 ∧
        resumes (early.feed (searching pos start) stream).2 =
          resumes (late.feed (searching pos start) stream).2 ↔
      ¬ MeetsBadLength stream := by
  constructor
  · rintro ⟨-, hresumes⟩ ⟨rest, hsearched, l, h, c, more, rfl, hc⟩
    obtain ⟨reports, pos', start', hnone, -, hfeed⟩ := hsearched.feed pos start
    rw [hfeed early hreads, hfeed late hreads', resumes_append, resumes_append, hnone] at hresumes
    obtain ⟨reports', hbad⟩ := early.feed_badLength_early hearly hc pos' start' more
    rw [hbad] at hresumes
    rcases late.feed_badLength_late hlate hc pos' start' more with hquiet | ⟨reports'', hbad'⟩
    · rw [hquiet] at hresumes
      cases hresumes
    · rw [hbad'] at hresumes
      have hpos := (List.cons.inj hresumes).1
      omega
  · intro hmeets
    obtain ⟨rest, hsearched, hbad | hun⟩ := exists_searched stream
    · exact absurd ⟨rest, hsearched, hbad⟩ hmeets
    · obtain ⟨reports, pos', start', hnone, hin, hfeed⟩ := hsearched.feed pos start
      have hsame : ∀ policy : Policy, policy.ReadsAll stream →
          (policy.feed (searching pos start) stream).2 = reports := by
        intro policy hpolicy
        rw [hfeed policy hpolicy, hun.feed (hpolicy.part hin), List.append_nil]
      rw [hsame early hreads, hsame late hreads']
      exact ⟨rfl, rfl⟩

end Agree

end Ros2Serial.Wire
