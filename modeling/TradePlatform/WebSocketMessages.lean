/-
# `TradePlatform.WebSocketMessages` — which messages become a text

What `receive_text` returns depends on the bytes of the stream, not on how `recv` cuts them, and
on the frames up to the first final data frame.  The fragments are judged by the opcode of the
last of them that is no continuation, so that a text frame inside a message that is not finished
starts over without losing what came before: such a message becomes a text, all others that do
are a text frame and its continuations.
-/
import TradePlatform.WebSocketClient
import TradePlatform.Lib.Replay

namespace TradePlatform

namespace WebSocket

/-! ## One frame -/

inductive Step where
  | again (fragments : List Bytes) (fragmentOpcode : Option UInt8)
  | stop (result : Except Exn String)

def stepOf (fragments : List Bytes) (fragmentOpcode : Option UInt8) (frame : Frame) : Step :=
  if frame.opcode = opcodePing then .again fragments fragmentOpcode
  else if frame.opcode = opcodePong then .again fragments fragmentOpcode
  else if frame.opcode = opcodeClose then
    .stop (.error (.bybitPublicPeerClosedError "connection_closed_by_peer_close_frame"))
  else if frame.opcode = opcodeBinary then
    .stop (.error (.bybitPublicWebSocketError "binary_frames_are_not_expected_on_this_feed"))
  else if frame.opcode = opcodeContinuation ∧ fragmentOpcode = none then
    .stop (.error (.bybitPublicWebSocketError "continuation_without_a_started_message"))
  else
    let started :=
      if frame.opcode = opcodeContinuation then fragmentOpcode else some frame.opcode
    let joined := fragments ++ [frame.payload]
    if frame.fin then
      if started ≠ some opcodeText then
        .stop (.error (.bybitPublicWebSocketError "unexpected_non_text_message"))
      else .stop (decode joined.flatten)
    else .again joined started

variable {fragments : List Bytes} {fragmentOpcode : Option UInt8} {frame : Frame} {c c' : Client}

theorem receiveLoop_error {e : Exn} (h : readFrame.run c = (.error e, c')) :
    receiveLoop fragments fragmentOpcode c = (.error e, c') := by
  rw [receiveLoop]
  split
  · rename_i hread
    rw [h] at hread
    cases hread
    rfl
  · rename_i hread
    rw [h] at hread
    cases hread

theorem receiveLoop_step (h : readFrame.run c = (.ok frame, c')) :
    (∃ fragments' fragmentOpcode' d, stepOf fragments fragmentOpcode frame =
        .again fragments' fragmentOpcode' ∧
      receiveLoop fragments fragmentOpcode c = receiveLoop fragments' fragmentOpcode' d ∧
      d.stream = c'.stream) ∨
    ∃ result, stepOf fragments fragmentOpcode frame = .stop result ∧
      receiveLoop fragments fragmentOpcode c = (result, c') := by
  rw [receiveLoop]
  split
  · rename_i hread
    rw [h] at hread
    cases hread
  · rename_i hread
    rw [h] at hread
    cases hread
    unfold stepOf
    split
    · exact .inl ⟨_, _, _, rfl, rfl, rfl⟩
    · split
      · exact .inl ⟨_, _, _, rfl, rfl, rfl⟩
      · split
        · exact .inr ⟨_, rfl, rfl⟩
        · split
          · exact .inr ⟨_, rfl, rfl⟩
          · split
            · exact .inr ⟨_, rfl, rfl⟩
            · dsimp only
              by_cases hfin : frame.fin = true
              · rw [if_pos hfin, if_pos hfin]
                by_cases hstarted : (if frame.opcode = opcodeContinuation then fragmentOpcode
                    else some frame.opcode) ≠ some opcodeText
                · rw [if_pos hstarted, if_pos hstarted]
                  exact .inr ⟨_, rfl, rfl⟩
                · rw [if_neg hstarted, if_neg hstarted]
                  exact .inr ⟨_, rfl, rfl⟩
              · rw [if_neg hfin, if_neg hfin]
                exact .inl ⟨_, _, _, rfl, rfl, rfl⟩

/-! ## The stream only -/

theorem receiveLoop_sees (n : ℕ) : ∀ {fragments : List Bytes} {fragmentOpcode : Option UInt8}
    {c d : Client}, c.stream.length = n → c.stream = d.stream →
      (receiveLoop fragments fragmentOpcode c).1 = (receiveLoop fragments fragmentOpcode d).1 ∧
      (receiveLoop fragments fragmentOpcode c).2.stream =
        (receiveLoop fragments fragmentOpcode d).2.stream := by
  induction n using Nat.strong_induction_on with
  | _ n ih =>
      intro fragments fragmentOpcode c d hn h
      obtain ⟨hresult, hstream⟩ := sees_readFrame c d h
      cases hc : readFrame.run c with
      | mk result c' =>
          cases hd : readFrame.run d with
          | mk result' d' =>
              rw [hc, hd] at hresult hstream
              obtain rfl : result = result' := hresult
              cases result with
              | error e =>
                  rw [receiveLoop_error hc, receiveLoop_error hd]
                  exact ⟨rfl, hstream⟩
              | ok frame =>
                  have hlt := stream_readFrame_lt hc
                  rcases @receiveLoop_step fragments fragmentOpcode _ _ _ hc with
                    ⟨more, opcode, c₂, hstep, hloop, hafter⟩ | ⟨stop, hstep, hloop⟩
                  · rcases @receiveLoop_step fragments fragmentOpcode _ _ _ hd with
                      ⟨more', opcode', d₂, hstep', hloop', hafter'⟩ | ⟨stop', hstep', hloop'⟩
                    · rw [hstep] at hstep'
                      cases hstep'
                      rw [hloop, hloop']
                      exact ih _ (by rw [← hn, hafter]; exact hlt) rfl
                        (by rw [hafter, hafter', hstream])
                    · rw [hstep] at hstep'
                      cases hstep'
                  · rcases @receiveLoop_step fragments fragmentOpcode _ _ _ hd with
                      ⟨more', opcode', d₂, hstep', hloop', hafter'⟩ | ⟨stop', hstep', hloop'⟩
                    · rw [hstep] at hstep'
                      cases hstep'
                    · rw [hstep] at hstep'
                      cases hstep'
                      rw [hloop, hloop']
                      exact ⟨rfl, hstream⟩

theorem sees_receiveText : Raising.Sees Client.stream receiveText := fun _ _ h =>
  receiveLoop_sees _ rfl h

/-! ## The frames of a message -/

def IsControl (frame : Frame) : Prop := frame.opcode = opcodePing ∨ frame.opcode = opcodePong

instance : DecidablePred IsControl := fun _ => inferInstanceAs (Decidable (_ ∨ _))

def dataFrames (frames : List Frame) : List Frame := frames.filter fun f => ¬ IsControl f

/-- `frames` are the first frames of a stream, and `rest` is what follows them. -/
inductive Framed : List Frame → Bytes → Bytes → Prop
  | nil {rest : Bytes} : Framed [] rest rest
  | cons {frame : Frame} {frames : List Frame} {bytes stream rest : Bytes} :
      IsFrame frame bytes → Framed frames stream rest →
        Framed (frame :: frames) (bytes ++ stream) rest

inductive EndsMessage : List Frame → Prop
  | last {frame : Frame} : ¬ IsControl frame → frame.fin = true → EndsMessage [frame]
  | cons {frame : Frame} {frames : List Frame} : (¬ IsControl frame → frame.fin = false) →
      EndsMessage frames → EndsMessage (frame :: frames)

def verdict (fragments : List Bytes) (fragmentOpcode : Option UInt8) :
    List Frame → Except Exn String
  | [] => .error (.bybitPublicWebSocketError "connection_closed_by_peer")
  | frame :: frames =>
      match stepOf fragments fragmentOpcode frame with
      | .again fragments' fragmentOpcode' => verdict fragments' fragmentOpcode' frames
      | .stop result => result

theorem verdict_again {frames : List Frame} {fragments' : List Bytes}
    {fragmentOpcode' : Option UInt8}
    (h : stepOf fragments fragmentOpcode frame = .again fragments' fragmentOpcode') :
    verdict fragments fragmentOpcode (frame :: frames) =
      verdict fragments' fragmentOpcode' frames := by
  rw [verdict, h]

theorem verdict_stop {frames : List Frame} {result : Except Exn String}
    (h : stepOf fragments fragmentOpcode frame = .stop result) :
    verdict fragments fragmentOpcode (frame :: frames) = result := by
  rw [verdict, h]

theorem stepOf_again {fragments' : List Bytes} {fragmentOpcode' : Option UInt8}
    (h : stepOf fragments fragmentOpcode frame = .again fragments' fragmentOpcode') :
    ¬ IsControl frame → frame.fin = false := by
  intro hdata
  obtain ⟨hping, hpong⟩ := not_or.mp hdata
  unfold stepOf at h
  rw [if_neg hping, if_neg hpong] at h
  dsimp only at h
  cases hfin : frame.fin with
  | false => rfl
  | true =>
      rw [hfin] at h
      split_ifs at h
      all_goals contradiction

theorem stepOf_ok {text : String} (h : stepOf fragments fragmentOpcode frame = .stop (.ok text)) :
    ¬ IsControl frame ∧ frame.fin = true := by
  unfold stepOf at h
  dsimp only at h
  by_cases hping : frame.opcode = opcodePing
  · rw [if_pos hping] at h
    cases h
  · by_cases hpong : frame.opcode = opcodePong
    · rw [if_neg hping, if_pos hpong] at h
      cases h
    · refine ⟨not_or.mpr ⟨hping, hpong⟩, ?_⟩
      cases hfin : frame.fin with
      | true => rfl
      | false =>
          rw [if_neg hping, if_neg hpong, hfin] at h
          split_ifs at h
          all_goals first | contradiction | cases h

theorem receiveLoop_framed {frames : List Frame} {rest : Bytes} (hends : EndsMessage frames) :
    ∀ {fragments : List Bytes} {fragmentOpcode : Option UInt8} {c : Client},
      Framed frames c.stream rest → (receiveLoop fragments fragmentOpcode c).1 =
        verdict fragments fragmentOpcode frames := by
  induction hends with
  | @last frame hdata hfin =>
      intro fragments fragmentOpcode c hframed
      generalize hstream : c.stream = stream at hframed
      obtain - | ⟨hframe, hrest⟩ := hframed
      obtain ⟨c', hread, -⟩ := readFrame_append hframe hstream
      rcases @receiveLoop_step fragments fragmentOpcode _ _ _ hread with
        ⟨more, opcode, d, hstep, hloop, -⟩ | ⟨result, hstep, hloop⟩
      · have hagain := stepOf_again hstep hdata
        rw [hfin] at hagain
        cases hagain
      · rw [hloop, verdict_stop hstep]
  | @cons frame frames hnot hends ih =>
      intro fragments fragmentOpcode c hframed
      generalize hstream : c.stream = stream at hframed
      obtain - | ⟨hframe, hrest⟩ := hframed
      obtain ⟨c', hread, hafter⟩ := readFrame_append hframe hstream
      rcases @receiveLoop_step fragments fragmentOpcode _ _ _ hread with
        ⟨more, opcode, d, hstep, hloop, hnext⟩ | ⟨result, hstep, hloop⟩
      · rw [hloop, verdict_again hstep]
        exact ih (by rwa [hnext, hafter])
      · rw [hloop, verdict_stop hstep]

theorem receiveLoop_ok (n : ℕ) : ∀ {fragments : List Bytes} {fragmentOpcode : Option UInt8}
    {c c' : Client} {text : String}, c.stream.length = n →
      receiveLoop fragments fragmentOpcode c = (.ok text, c') →
        ∃ frames, EndsMessage frames ∧ Framed frames c.stream c'.stream := by
  induction n using Nat.strong_induction_on with
  | _ n ih =>
      intro fragments fragmentOpcode c c' text hn h
      cases hread : readFrame.run c with
      | mk result d =>
          cases result with
          | error e =>
              rw [receiveLoop_error hread] at h
              cases h
          | ok frame =>
              obtain ⟨bytes, hframe, hstream⟩ := readFrame_ok hread
              have hlt := stream_readFrame_lt hread
              rcases @receiveLoop_step fragments fragmentOpcode _ _ _ hread with
                ⟨more, opcode, d', hstep, hloop, hnext⟩ | ⟨result, hstep, hloop⟩
              · rw [hloop] at h
                obtain ⟨frames, hends, hframed⟩ := ih _ (by rw [← hn, hnext]; exact hlt) rfl h
                rw [hnext] at hframed
                refine ⟨frame :: frames, .cons (stepOf_again hstep) hends, ?_⟩
                rw [hstream]
                exact .cons hframe hframed
              · rw [hloop] at h
                cases h
                obtain ⟨hdata, hfin⟩ := stepOf_ok hstep
                refine ⟨[frame], .last hdata hfin, ?_⟩
                rw [hstream]
                exact .cons hframe .nil

/-! ## Which messages become a text -/

def lastOpcode (start : Option UInt8) (frames : List Frame) : Option UInt8 :=
  frames.foldl (fun opcode f => if f.opcode = opcodeContinuation then opcode else some f.opcode)
    start

structure Accepted (fragments : List Bytes) (start : Option UInt8) (frames : List Frame)
    (text : String) : Prop where
  expected : ∀ f ∈ frames, f.opcode ≠ opcodeClose ∧ f.opcode ≠ opcodeBinary
  started : start = none → ∀ f ∈ frames.head?, f.opcode ≠ opcodeContinuation
  lastText : lastOpcode start frames = some opcodeText
  decoded : decode (fragments.flatten ++ frames.flatMap Frame.payload) = .ok text

variable {text : String} {frames : List Frame}

theorem dataFrames_control (h : IsControl frame) :
    dataFrames (frame :: frames) = dataFrames frames :=
  List.filter_cons_of_neg (by simpa using h)

theorem dataFrames_data (h : ¬ IsControl frame) :
    dataFrames (frame :: frames) = frame :: dataFrames frames :=
  List.filter_cons_of_pos (by simpa using h)

theorem stepOf_control (h : IsControl frame) :
    stepOf fragments fragmentOpcode frame = .again fragments fragmentOpcode := by
  unfold stepOf
  by_cases hping : frame.opcode = opcodePing
  · rw [if_pos hping]
  · rw [if_neg hping, if_pos (h.resolve_left hping)]

theorem stepOf_taken (h : ¬ IsControl frame) (hclose : frame.opcode ≠ opcodeClose)
    (hbinary : frame.opcode ≠ opcodeBinary)
    (hstarted : fragmentOpcode = none → frame.opcode ≠ opcodeContinuation) :
    stepOf fragments fragmentOpcode frame =
      if frame.fin then
        if lastOpcode fragmentOpcode [frame] ≠ some opcodeText then
          .stop (.error (.bybitPublicWebSocketError "unexpected_non_text_message"))
        else .stop (decode (fragments ++ [frame.payload]).flatten)
      else .again (fragments ++ [frame.payload]) (lastOpcode fragmentOpcode [frame]) := by
  obtain ⟨hping, hpong⟩ := not_or.mp h
  unfold stepOf
  rw [if_neg hping, if_neg hpong, if_neg hclose, if_neg hbinary,
    if_neg fun hboth => hstarted hboth.2 hboth.1]
  rfl

theorem stepOf_refused (h : ¬ IsControl frame)
    (hrefused : frame.opcode = opcodeClose ∨ frame.opcode = opcodeBinary ∨
      (frame.opcode = opcodeContinuation ∧ fragmentOpcode = none)) :
    ∃ e, stepOf fragments fragmentOpcode frame = .stop (.error e) := by
  obtain ⟨hping, hpong⟩ := not_or.mp h
  unfold stepOf
  rw [if_neg hping, if_neg hpong]
  by_cases hclose : frame.opcode = opcodeClose
  · rw [if_pos hclose]
    exact ⟨_, rfl⟩
  · rw [if_neg hclose]
    by_cases hbinary : frame.opcode = opcodeBinary
    · rw [if_pos hbinary]
      exact ⟨_, rfl⟩
    · rw [if_neg hbinary, if_pos ((hrefused.resolve_left hclose).resolve_left hbinary)]
      exact ⟨_, rfl⟩

theorem verdict_eq_ok (h : EndsMessage frames) : ∀ {fragments : List Bytes}
    {fragmentOpcode : Option UInt8}, verdict fragments fragmentOpcode frames = .ok text ↔
      Accepted fragments fragmentOpcode (dataFrames frames) text := by
  have hrefuse : ∀ {fragments : List Bytes} {fragmentOpcode : Option UInt8} {frame : Frame}
      {frames : List Frame}, ¬ IsControl frame →
      (frame.opcode = opcodeClose ∨ frame.opcode = opcodeBinary ∨
        (frame.opcode = opcodeContinuation ∧ fragmentOpcode = none)) →
      (verdict fragments fragmentOpcode (frame :: frames) = .ok text ↔
        Accepted fragments fragmentOpcode (frame :: dataFrames frames) text) := by
    intro fragments fragmentOpcode frame frames hdata hrefused
    obtain ⟨e, hstep⟩ := @stepOf_refused fragments fragmentOpcode frame hdata hrefused
    rw [verdict_stop hstep]
    refine iff_of_false (by simp) fun haccepted => ?_
    obtain ⟨hclose, hbinary⟩ := haccepted.expected frame List.mem_cons_self
    rcases hrefused with hrefused | hrefused | ⟨hcontinuation, hnone⟩
    · exact hclose hrefused
    · exact hbinary hrefused
    · exact haccepted.started hnone frame rfl hcontinuation
  induction h with
  | @last frame hdata hfin =>
      intro fragments fragmentOpcode
      rw [dataFrames_data hdata, show dataFrames [] = [] from rfl]
      by_cases hrefused : frame.opcode = opcodeClose ∨ frame.opcode = opcodeBinary ∨
          (frame.opcode = opcodeContinuation ∧ fragmentOpcode = none)
      · exact hrefuse hdata hrefused
      · simp only [not_or, not_and'] at hrefused
        obtain ⟨hclose, hbinary, hstarted⟩ := hrefused
        have hstep := @stepOf_taken fragments fragmentOpcode frame hdata hclose hbinary hstarted
        rw [if_pos hfin] at hstep
        by_cases htext : lastOpcode fragmentOpcode [frame] = some opcodeText
        · rw [if_neg (not_not.mpr htext)] at hstep
          rw [verdict_stop hstep]
          constructor
          · intro hdecode
            refine ⟨fun f hf => ?_, by simpa using hstarted, htext, by simpa using hdecode⟩
            rw [List.mem_singleton.mp hf]
            exact ⟨hclose, hbinary⟩
          · intro haccepted
            simpa using haccepted.decoded
        · rw [if_pos htext] at hstep
          rw [verdict_stop hstep]
          exact iff_of_false (by simp) fun haccepted => htext haccepted.lastText
  | @cons frame frames hnot hends ih =>
      intro fragments fragmentOpcode
      by_cases hcontrol : IsControl frame
      · rw [dataFrames_control hcontrol, verdict_again (stepOf_control hcontrol)]
        exact ih
      · rw [dataFrames_data hcontrol]
        by_cases hrefused : frame.opcode = opcodeClose ∨ frame.opcode = opcodeBinary ∨
            (frame.opcode = opcodeContinuation ∧ fragmentOpcode = none)
        · exact hrefuse hcontrol hrefused
        · simp only [not_or, not_and'] at hrefused
          obtain ⟨hclose, hbinary, hstarted⟩ := hrefused
          have hstep :=
            @stepOf_taken fragments fragmentOpcode frame hcontrol hclose hbinary hstarted
          rw [if_neg (by simp [hnot hcontrol])] at hstep
          rw [verdict_again hstep, ih]
          have hsome : lastOpcode fragmentOpcode [frame] ≠ none := by
            intro hnone
            unfold lastOpcode at hnone
            simp only [List.foldl_cons, List.foldl_nil] at hnone
            split at hnone
            · exact hstarted hnone ‹_›
            · cases hnone
          constructor
          · rintro ⟨hexpected, -, htext, hdecoded⟩
            refine ⟨fun f hf => ?_, by simpa using hstarted, htext, by simpa using hdecoded⟩
            rcases List.mem_cons.mp hf with rfl | hf
            · exact ⟨hclose, hbinary⟩
            · exact hexpected f hf
          · rintro ⟨hexpected, -, htext, hdecoded⟩
            exact ⟨fun f hf => hexpected f (List.mem_cons_of_mem _ hf),
              fun hnone => absurd hnone hsome, htext, by simpa using hdecoded⟩

/-! ## Messages that start over -/

def joinedPayload (message : List Frame) : Bytes := (dataFrames message).flatMap Frame.payload

/-- A message of one text frame and any number of continuations, the last of its data frames and
no other final, with its text. -/
structure Proper (message : List Frame) (text : String) : Prop where
  textFirst : ∃ first continuations, dataFrames message = first :: continuations ∧
    first.opcode = opcodeText ∧ ∀ f ∈ continuations, f.opcode = opcodeContinuation
  lastFinal : ∃ front last, dataFrames message = front ++ [last] ∧ last.fin = true ∧
    ∀ f ∈ front, f.fin = false
  decoded : decode (joinedPayload message) = .ok text

/-- A message with a text frame after the first of its data frames and nothing but continuations
after it, that is refused for no other reason. -/
def Restarted (message : List Frame) : Prop :=
  ∃ before restart continuations, dataFrames message = before ++ restart :: continuations ∧
    before ≠ [] ∧ (∀ f ∈ before.head?, f.opcode ≠ opcodeContinuation) ∧
    (∀ f ∈ before, f.opcode ≠ opcodeClose ∧ f.opcode ≠ opcodeBinary) ∧
    restart.opcode = opcodeText ∧ (∀ f ∈ continuations, f.opcode = opcodeContinuation) ∧
    ∃ text, decode (joinedPayload message) = .ok text

theorem lastOpcode_append (start : Option UInt8) (before after : List Frame) :
    lastOpcode start (before ++ after) = lastOpcode (lastOpcode start before) after :=
  List.foldl_append

theorem lastOpcode_continuations (start : Option UInt8) (h : ∀ f ∈ frames,
    f.opcode = opcodeContinuation) : lastOpcode start frames = start := by
  induction frames with
  | nil => rfl
  | cons f frames ih =>
      have hf := h f List.mem_cons_self
      have hrest := ih fun g hg => h g (List.mem_cons_of_mem _ hg)
      unfold lastOpcode at hrest ⊢
      rw [List.foldl_cons, if_pos hf]
      exact hrest

theorem exists_of_lastOpcode (h : lastOpcode none frames = some opcodeText) :
    ∃ before restart continuations, frames = before ++ restart :: continuations ∧
      restart.opcode = opcodeText ∧ ∀ f ∈ continuations, f.opcode = opcodeContinuation := by
  induction frames using List.reverseRecOn with
  | nil => cases h
  | append_singleton frames f ih =>
      rw [lastOpcode_append] at h
      by_cases hf : f.opcode = opcodeContinuation
      · have hsame : lastOpcode (lastOpcode none frames) [f] = lastOpcode none frames :=
          lastOpcode_continuations _ fun g hg => by rwa [List.mem_singleton.mp hg]
        rw [hsame] at h
        obtain ⟨before, restart, continuations, rfl, hrestart, hcontinuations⟩ := ih h
        refine ⟨before, restart, continuations ++ [f], by simp, hrestart, fun g hg => ?_⟩
        rcases List.mem_append.mp hg with hg | hg
        · exact hcontinuations g hg
        · rwa [List.mem_singleton.mp hg]
      · have hself : lastOpcode (lastOpcode none frames) [f] = some f.opcode := if_neg hf
        rw [hself] at h
        exact ⟨frames, f, [], rfl, Option.some.inj h, fun g hg => absurd hg List.not_mem_nil⟩

theorem EndsMessage.lastFinal (h : EndsMessage frames) :
    ∃ front last, dataFrames frames = front ++ [last] ∧ last.fin = true ∧
      ∀ f ∈ front, f.fin = false := by
  induction h with
  | @last frame hdata hfin =>
      exact ⟨[], frame, dataFrames_data hdata, hfin, fun f hf => absurd hf List.not_mem_nil⟩
  | @cons frame frames hnot hends ih =>
      obtain ⟨front, last, heq, hlast, hfront⟩ := ih
      by_cases hcontrol : IsControl frame
      · exact ⟨front, last, (dataFrames_control hcontrol).trans heq, hlast, hfront⟩
      · refine ⟨frame :: front, last, by rw [dataFrames_data hcontrol, heq, List.cons_append],
          hlast, fun f hf => ?_⟩
        rcases List.mem_cons.mp hf with rfl | hf
        · exact hnot hcontrol
        · exact hfront f hf

variable {message : List Frame}

theorem text_expected : opcodeText ≠ opcodeClose ∧ opcodeText ≠ opcodeBinary := by decide

theorem continuation_expected :
    opcodeContinuation ≠ opcodeClose ∧ opcodeContinuation ≠ opcodeBinary := by decide

theorem Restarted.accepted (h : Restarted message) :
    ∃ text, Accepted [] none (dataFrames message) text ∧ ¬ Proper message text := by
  obtain ⟨before, restart, continuations, heq, hne, hfirst, hexpected, hrestart, hcontinuations,
    text, hdecoded⟩ := h
  refine ⟨text, ⟨?_, ?_, ?_, hdecoded⟩, ?_⟩
  · intro f hf
    rw [heq] at hf
    rcases List.mem_append.mp hf with hf | hf
    · exact hexpected f hf
    · rcases List.mem_cons.mp hf with rfl | hf
      · rw [hrestart]
        exact text_expected
      · rw [hcontinuations f hf]
        exact continuation_expected
  · intro _ f hf
    rw [heq, List.head?_append_of_ne_nil _ hne] at hf
    exact hfirst f hf
  · rw [heq, lastOpcode_append, ← List.singleton_append, lastOpcode_append,
      lastOpcode_continuations _ hcontinuations]
    exact (if_neg (by rw [hrestart]; decide)).trans (congrArg some hrestart)
  · rintro ⟨⟨first, rest, hfirsts, -, hrest⟩, -, -⟩
    obtain ⟨f, before, rfl⟩ := List.exists_cons_of_ne_nil hne
    rw [heq] at hfirsts
    obtain ⟨-, rfl⟩ := List.cons.inj hfirsts
    have hcontinuation := hrest restart (List.mem_append_right _ List.mem_cons_self)
    rw [hrestart] at hcontinuation
    cases hcontinuation

theorem proper_iff (hends : EndsMessage message) (h : Accepted [] none (dataFrames message) text) :
    Proper message text ↔ ¬ Restarted message := by
  constructor
  · intro hproper hrestarted
    obtain ⟨text', haccepted, hnot⟩ := hrestarted.accepted
    have heq : (Except.ok text : Except Exn String) = .ok text' :=
      h.decoded.symm.trans haccepted.decoded
    cases heq
    exact hnot hproper
  · intro hnot
    obtain ⟨before, restart, continuations, heq, hrestart, hcontinuations⟩ :=
      exists_of_lastOpcode h.lastText
    refine ⟨?_, hends.lastFinal, h.decoded⟩
    by_cases hne : before = []
    · subst hne
      exact ⟨restart, continuations, heq, hrestart, hcontinuations⟩
    · refine absurd ⟨before, restart, continuations, heq, hne, fun f hf => ?_, fun f hf => ?_,
        hrestart, hcontinuations, text, h.decoded⟩ hnot
      · refine h.started rfl f ?_
        rwa [heq, List.head?_append_of_ne_nil _ hne]
      · refine h.expected f ?_
        rw [heq]
        exact List.mem_append_left _ hf

/-! ## Calls one after another -/

theorem Framed.length_lt {stream rest : Bytes} (h : Framed frames stream rest) (hne : frames ≠ []) :
    rest.length < stream.length := by
  induction h with
  | nil => exact absurd rfl hne
  | @cons frame frames bytes stream rest hframe hframed ih =>
      obtain ⟨first, second, extended, -, rfl⟩ := hframe
      rw [List.length_append, List.length_cons]
      rcases eq_or_ne frames [] with rfl | hmore
      · cases hframed
        omega
      · have hlt := ih hmore
        omega

theorem EndsMessage.ne_nil (h : EndsMessage frames) : frames ≠ [] := by
  rintro rfl
  cases h

theorem stream_receiveText_lt (h : receiveText.run c = (.ok text, c')) :
    c'.stream.length < c.stream.length := by
  obtain ⟨frames, hends, hframed⟩ := receiveLoop_ok _ rfl h
  exact hframed.length_lt hends.ne_nil

/-- The texts that `receive_text` returns, called until it raises, and what it raises. -/
def texts (c : Client) : List String × Exn :=
  match hread : receiveText.run c with
  | (.error e, _) => ([], e)
  | (.ok text, c') => (text :: (texts c').1, (texts c').2)
termination_by c.stream.length
decreasing_by
  all_goals
    have hlt := stream_receiveText_lt hread
    exact hlt

theorem texts_error {e : Exn} (h : receiveText.run c = (.error e, c')) : texts c = ([], e) := by
  rw [texts]
  split
  · rename_i hread
    rw [h] at hread
    cases hread
    rfl
  · rename_i hread
    rw [h] at hread
    cases hread

theorem texts_ok (h : receiveText.run c = (.ok text, c')) :
    texts c = (text :: (texts c').1, (texts c').2) := by
  conv_lhs => rw [texts]
  split
  · rename_i hread
    rw [h] at hread
    cases hread
  · rename_i hread
    rw [h] at hread
    cases hread
    rfl

theorem texts_sees (n : ℕ) : ∀ {c d : Client}, c.stream.length = n → c.stream = d.stream →
    texts c = texts d := by
  induction n using Nat.strong_induction_on with
  | _ n ih =>
      intro c d hn h
      obtain ⟨hresult, hstream⟩ := sees_receiveText c d h
      cases hc : receiveText.run c with
      | mk result c' =>
          cases hd : receiveText.run d with
          | mk result' d' =>
              rw [hc, hd] at hresult hstream
              obtain rfl : result = result' := hresult
              cases result with
              | error e => rw [texts_error hc, texts_error hd]
              | ok text =>
                  have hlt := stream_receiveText_lt hc
                  rw [texts_ok hc, texts_ok hd, ih _ (hn ▸ hlt) rfl hstream]

theorem Framed.append {more : List Frame} {stream middle rest : Bytes}
    (h : Framed frames stream middle) (hmore : Framed more middle rest) :
    Framed (frames ++ more) stream rest := by
  induction h with
  | nil => exact hmore
  | cons hframe _ ih => exact .cons hframe (ih hmore)

theorem receiveText_eq_ok {rest : Bytes} (hends : EndsMessage message)
    (hframed : Framed message c.stream rest) :
    (receiveText.run c).1 = .ok text ↔ Accepted [] none (dataFrames message) text := by
  have hloop : (receiveText.run c).1 = verdict [] none message := receiveLoop_framed hends hframed
  rw [hloop]
  exact verdict_eq_ok hends

theorem texts_messages (n : ℕ) : ∀ {c : Client}, c.stream.length = n →
    ∃ messages rest, Framed messages.flatten c.stream rest ∧
      List.Forall₂ (fun message text => EndsMessage message ∧
        Accepted [] none (dataFrames message) text) messages (texts c).1 := by
  induction n using Nat.strong_induction_on with
  | _ n ih =>
      intro c hn
      cases hread : receiveText.run c with
      | mk result c' =>
          cases result with
          | error e =>
              rw [texts_error hread]
              exact ⟨[], c.stream, .nil, .nil⟩
          | ok text =>
              obtain ⟨message, hends, hframed⟩ := receiveLoop_ok _ rfl hread
              have haccepted := (receiveText_eq_ok hends hframed).mp (congrArg Prod.fst hread)
              have hlt := stream_receiveText_lt hread
              obtain ⟨messages, rest, hmessages, htexts⟩ := ih _ (hn ▸ hlt) rfl
              rw [texts_ok hread]
              exact ⟨message :: messages, rest, hframed.append hmessages,
                .cons ⟨hends, haccepted⟩ htexts⟩

theorem Proper.accepted (h : Proper message text) :
    Accepted [] none (dataFrames message) text := by
  obtain ⟨first, continuations, heq, hfirst, hcontinuations⟩ := h.textFirst
  refine ⟨fun f hf => ?_, fun _ f hf => ?_, ?_, h.decoded⟩
  · rw [heq] at hf
    rcases List.mem_cons.mp hf with rfl | hf
    · rw [hfirst]
      exact text_expected
    · rw [hcontinuations f hf]
      exact continuation_expected
  · rw [heq] at hf
    cases hf
    rw [hfirst]
    decide
  · rw [heq, ← List.singleton_append, lastOpcode_append, lastOpcode_continuations _ hcontinuations]
    exact (if_neg (by rw [hfirst]; decide)).trans (congrArg some hfirst)

/-- How `recv` cuts the stream makes no difference to the texts; they are those of the messages
that the stream starts with, proper ones unless they start over; and of the messages that do not
start over, a call returns the texts of the proper ones and raises at every other. -/
theorem receiveText_proper_iff (c : Client) :
    (∀ d : Client, c.stream = d.stream → texts c = texts d) ∧
      (∃ messages rest, Framed messages.flatten c.stream rest ∧
        List.Forall₂ (fun message text => EndsMessage message ∧
          (Proper message text ↔ ¬ Restarted message)) messages (texts c).1) ∧
      ∀ message rest, EndsMessage message → Framed message c.stream rest →
        ((∀ text, (receiveText.run c).1 = .ok text ↔ Proper message text) ↔
          ¬ Restarted message) := by
  refine ⟨fun d h => texts_sees _ rfl h, ?_, fun message rest hends hframed => ?_⟩
  · obtain ⟨messages, rest, hframed, htexts⟩ := @texts_messages _ c rfl
    refine ⟨messages, rest, hframed, htexts.imp ?_⟩
    rintro message text ⟨hends, haccepted⟩
    exact ⟨hends, proper_iff hends haccepted⟩
  · constructor
    · intro hproper hrestarted
      obtain ⟨text, haccepted, hnot⟩ := hrestarted.accepted
      exact hnot ((hproper text).mp ((receiveText_eq_ok hends hframed).mpr haccepted))
    · intro hnot text
      rw [receiveText_eq_ok hends hframed]
      exact ⟨fun haccepted => (proper_iff hends haccepted).mpr hnot, Proper.accepted⟩

def whole (stream : Bytes) : Client := ⟨StreamReader.Source.whole stream, []⟩

theorem stream_whole (stream : Bytes) : (whole stream).stream = stream :=
  StreamReader.Source.stream_whole stream

def oneByte (fin : Bool) (byte : UInt8) : Frame := ⟨fin, opcodeText, [byte]⟩

theorem oneByte_isFrame (fin : Bool) (byte : UInt8) :
    IsFrame (oneByte fin byte) [if fin then 0x81 else 0x01, 1, byte] := by
  refine ⟨if fin then 0x81 else 0x01, 1, [], ⟨by decide, ?_, ?_, rfl, rfl, ?_⟩, rfl⟩
  · cases fin <;> rfl
  · cases fin <;> rfl
  · show 1 ≤ maxFrameBytes
    decide

theorem receiveText_proper_iff_letter :
    (receiveText.run (whole [0x81, 1, 97])).1 = .ok "a" := by
  have hframed : Framed [oneByte true 97] (whole [0x81, 1, 97]).stream [] := by
    rw [stream_whole]
    exact .cons (oneByte_isFrame true 97) .nil
  have hdata : dataFrames [oneByte true 97] = [oneByte true 97] := by decide
  have hnot : ¬ Restarted [oneByte true 97] := by
    rintro ⟨before, restart, continuations, heq, hne, -⟩
    rw [hdata] at heq
    obtain ⟨f, before, rfl⟩ := List.exists_cons_of_ne_nil hne
    simp at heq
  refine (((receiveText_proper_iff (whole [0x81, 1, 97])).2.2 _ _
    (.last (by decide) rfl) hframed).mpr hnot "a").mpr ⟨?_, ?_, by rfl⟩
  · exact ⟨_, [], hdata, rfl, by simp⟩
  · exact ⟨[], _, hdata, rfl, by simp⟩

/-- A text frame that is not final and then one that is: their payloads are put together. -/
theorem a_message_that_starts_over :
    Framed [oneByte false 97, oneByte true 98] (whole [0x01, 1, 97, 0x81, 1, 98]).stream [] ∧
      EndsMessage [oneByte false 97, oneByte true 98] ∧
      (receiveText.run (whole [0x01, 1, 97, 0x81, 1, 98])).1 = .ok "ab" ∧
      ¬ Proper [oneByte false 97, oneByte true 98] "ab" := by
  have hframed :
      Framed [oneByte false 97, oneByte true 98] (whole [0x01, 1, 97, 0x81, 1, 98]).stream [] := by
    rw [stream_whole]
    exact .cons (oneByte_isFrame false 97) (.cons (oneByte_isFrame true 98) .nil)
  have hends : EndsMessage [oneByte false 97, oneByte true 98] :=
    .cons (fun _ => rfl) (.last (by decide) rfl)
  have hdata : dataFrames [oneByte false 97, oneByte true 98] =
      [oneByte false 97, oneByte true 98] := by decide
  refine ⟨hframed, hends, (receiveText_eq_ok hends hframed).mpr ?_, ?_⟩
  · rw [hdata]
    refine ⟨by decide, fun _ f hf => ?_, by decide, by rfl⟩
    cases hf
    decide
  · rintro ⟨⟨first, continuations, heq, -, hcontinuations⟩, -, -⟩
    rw [hdata] at heq
    obtain ⟨-, rfl⟩ := List.cons.inj heq
    have hcontinuation := hcontinuations (oneByte true 98) List.mem_cons_self
    cases hcontinuation

end WebSocket

end TradePlatform
