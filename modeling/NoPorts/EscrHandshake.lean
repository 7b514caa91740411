import NoPorts.EscrLink

/-! A Dart srv and the relay authenticating over one connection: whatever order the bytes come in, however they are
cut, and whichever end goes on first, both get there, and then each has what the other sends. -/
namespace NoPorts.EscrHandshake
open Lib Signing
open Srvd (newline fromCharCodes EscrFields maxAuthBufferLength isUnprintable)
open Srvd.Escr (RelayAuthVerifierESCR EscrReply)
open RelayAuthenticator (RelayAuthenticatorESCR Authentication)
open RelayMessages (Printable Inline)

/-! ### What is known of the connection -/

/-- A response to the relay's challenge, made with an IV of 16 bytes. -/
def Answers (a : RelayAuthenticatorESCR) (v : RelayAuthVerifierESCR) (response : String) : Prop :=
  ∃ iv, iv.length = 16 ∧ a.responseToChallenge v.challenge iv = .ok response

/-- A challenge and responses that go over the wire as they are, the latter not too long for the relay. -/
structure Sound (a : RelayAuthenticatorESCR) (v : RelayAuthVerifierESCR) : Prop where
  challenge : ∀ c ∈ v.challenge.toList, Inline c
  response : ∀ response, Answers a v response →
    (∀ c ∈ response.toList, 33 ≤ c.toNat ∧ c.toNat < 128) ∧ response.length < maxAuthBufferLength

/-- An await that ends as it should: the client can respond, and the relay, which knows the client's session,
verifies every response it makes. -/
def Works (a : RelayAuthenticatorESCR) (v : RelayAuthVerifierESCR) (fields : EscrFields) : Event → Prop
  | .clientResumes reply => reply.write = .ok () ∧ reply.flush = .ok () ∧ reply.iv.length = 16 ∧
      ∃ response, a.responseToChallenge v.challenge reply.iv = .ok response
  | .relayResumes reply => reply.flush = .ok () ∧ reply.randomlyFails = false ∧
      ∀ response, Answers a v response → v.verifyWith v.challenge reply.helper response = .ok fields
  | _ => True

/-- The relay has verified the response, and has what the client has sent since. -/
inductive Open (fields : EscrFields) (l : Link) : Prop
  | confirming (chunks : List (List UInt8)) (hr : l.relay = confirming fields chunks)
      (hbytes : chunks.flatten ++ l.toRelay = l.fromClient) (hnone : l.fromRelay = [])
  | verified (body chunks : List (List UInt8)) (hr : l.relay = verified fields body chunks)
      (hbytes : body.flatten ++ (chunks.flatten ++ l.toRelay) = l.fromClient)

/-- How far the two are. -/
inductive Phase (a : RelayAuthenticatorESCR) (v : RelayAuthVerifierESCR) (fields : EscrFields) (l : Link) : Prop
  | challenged (buffer : List UInt8) (chunks : List (List UInt8)) (hc : l.client = reading buffer chunks)
      (hbytes : buffer ++ (chunks.flatten ++ l.toClient) = writeln v.challenge) (hline : newline ∉ buffer)
      (hne : [] ∉ chunks) (hr : l.relay = hearing [] []) (htoRelay : l.toRelay = [])
      (hsent : l.fromClient = [] ∧ l.fromRelay = [])
  | responding (hc : l.client = responding v.challenge) (htoClient : l.toClient = [])
      (hr : l.relay = hearing [] []) (htoRelay : l.toRelay = []) (hsent : l.fromClient = [] ∧ l.fromRelay = [])
  | answered (response : String) (flushing : Bool) (buffer : List UInt8) (chunks : List (List UInt8))
      (hresponse : Answers a v response)
      (hc : l.client = responded (response ++ "\n") flushing [] []) (htoClient : l.toClient = [])
      (hr : l.relay = hearing buffer chunks) (hbytes : buffer ++ (chunks.flatten ++ l.toRelay) = writeln response)
      (hline : newline ∉ buffer) (hne : [] ∉ chunks) (hsent : l.fromClient = [] ∧ l.fromRelay = [])
  | checking (response : String) (flushing : Bool) (hresponse : Answers a v response)
      (hc : l.client = responded (response ++ "\n") flushing [] []) (htoClient : l.toClient = [])
      (hr : l.relay = verifying response) (htoRelay : l.toRelay = []) (hsent : l.fromClient = [] ∧ l.fromRelay = [])
  | confirmed (line : String) (flushing : Bool) (buffer : List UInt8) (chunks : List (List UInt8))
      (hc : l.client = responded line flushing buffer chunks)
      (hbytes : buffer ++ (chunks.flatten ++ l.toClient) = writeln "ok" ++ l.fromRelay) (hline : newline ∉ buffer)
      (hopen : Open fields l) (hsent : l.fromClient = [])
  | relaying (line : String) (buffer : List UInt8) (body chunks : List (List UInt8))
      (hc : l.client = authenticated line buffer body chunks)
      (hbytes : body.flatten ++ (chunks.flatten ++ l.toClient) = l.fromRelay) (hopen : Open fields l)

def clientWeight : RelayAuthenticator.Task → ℕ
  | .chunk _ => 2
  | _ => 1

def relayWeight : Srvd.Escr.Task → ℕ
  | .chunk _ => 2
  | _ => 1

/-- The turns that are left to the client, and the response it has yet to write. -/
def clientLeft (c : Authentication) : ℕ :=
  (c.queue.map clientWeight).sum + if c.written = [] then 3 * maxAuthBufferLength + 1 else 0

/-- The turns that are left to the relay, and the `ok` it has yet to write. -/
def relayLeft (r : Srvd.Escr.Socket) : ℕ :=
  (r.queue.map relayWeight).sum + if r.written = [.challenge] then 10 else 0

/-- What is left to be done, unless more is sent: a byte on its way becomes a chunk, a chunk that ends a line
a task, and a task that writes more bytes. -/
def remaining (l : Link) : ℕ :=
  3 * l.toClient.length + 3 * l.toRelay.length + clientLeft l.client + relayLeft l.relay

section left
variable (buffer : List UInt8) (body chunks : List (List UInt8)) (line : String) (fields : EscrFields)

theorem sum_clientChunks : ((clientChunks chunks).map clientWeight).sum = 2 * chunks.length := by
  induction chunks with
  | nil => rfl
  | cons chunk chunks ih =>
    rw [clientChunks, List.map_cons, List.map_cons, List.sum_cons, ← clientChunks, ih, clientWeight,
      List.length_cons]
    omega

theorem sum_relayChunks : ((relayChunks chunks).map relayWeight).sum = 2 * chunks.length := by
  induction chunks with
  | nil => rfl
  | cons chunk chunks ih =>
    rw [relayChunks, List.map_cons, List.map_cons, List.sum_cons, ← relayChunks, ih, relayWeight,
      List.length_cons]
    omega

theorem clientLeft_reading :
    clientLeft (reading buffer chunks) = 2 * chunks.length + (3 * maxAuthBufferLength + 1) :=
  congrArg (· + (3 * maxAuthBufferLength + 1)) (sum_clientChunks chunks)

theorem clientLeft_responding (challenge : String) :
    clientLeft (responding challenge) = 1 + (3 * maxAuthBufferLength + 1) := rfl

theorem clientLeft_responded (flushing : Bool) :
    clientLeft (responded line flushing buffer chunks) = (if flushing then 1 else 0) + 2 * chunks.length := by
  have hsum := sum_clientChunks chunks
  cases flushing with
  | false => exact hsum.trans (Nat.zero_add _).symm
  | true =>
    change 1 + ((clientChunks chunks).map clientWeight).sum = 1 + 2 * chunks.length
    rw [hsum]

theorem clientLeft_authenticated : clientLeft (authenticated line buffer body chunks) = 2 * chunks.length :=
  sum_clientChunks chunks

theorem relayLeft_hearing : relayLeft (hearing buffer chunks) = 2 * chunks.length + 10 :=
  congrArg (· + 10) (sum_relayChunks chunks)

theorem relayLeft_verifying (response : String) : relayLeft (verifying response) = 11 := rfl

theorem relayLeft_confirming : relayLeft (confirming fields chunks) = 1 + 2 * chunks.length :=
  congrArg (1 + ·) (sum_relayChunks chunks)

theorem relayLeft_verified : relayLeft (verified fields body chunks) = 2 * chunks.length := sum_relayChunks chunks

end left

/-- A line is read, or is not there yet. -/
theorem line_read {line tail buffer rest : List UInt8} (hline : newline ∉ line)
    (h : buffer ++ rest = line ++ newline :: tail) :
    splitFirst newline buffer = none ∧ newline ∉ buffer ∨
      ∃ excess, splitFirst newline buffer = some (line, excess) ∧ excess ++ rest = tail := by
  cases hsplit : splitFirst newline buffer with
  | none => exact Or.inl ⟨rfl, splitFirst_none hsplit⟩
  | some lr =>
    obtain ⟨first, excess⟩ := lr
    obtain ⟨hfirst, rfl⟩ := splitFirst_some hsplit
    -- both are what stands before the first newline of the whole
    have hwhole := splitFirst_eq hfirst (excess ++ rest)
    rw [← List.cons_append, ← List.append_assoc, h, splitFirst_eq hline] at hwhole
    obtain ⟨hsame, hexcess⟩ := Prod.mk.inj (Option.some.inj hwhole)
    exact Or.inr ⟨excess, by rw [hsame], hexcess.symm⟩

theorem writeln_eq (text : String) : writeln text = Utf8.encode text.toList ++ [newline] := by
  rw [writeln, String.toList_append, Utf8.encode_append]
  rfl

section run
variable {a : RelayAuthenticatorESCR} {v : RelayAuthVerifierESCR} {fields : EscrFields} {l l' : Link}

/-- The text of a response survives the wire, the reading of a line and the trimming. -/
theorem trim_response (h : Sound a v) {response : String} (hresponse : Answers a v response) :
    trim (fromCharCodes (Utf8.encode response.toList)) = response ∧ newline ∉ Utf8.encode response.toList ∧
      response.toList.any (fun c => isUnprintable c.toNat) = false ∧
      (writeln response).length ≤ maxAuthBufferLength := by
  obtain ⟨hchars, hlength⟩ := h.response response hresponse
  have hinline : ∀ c ∈ response.toList, Inline c := by
    intro c hc
    obtain ⟨hlow, hhigh⟩ := hchars c hc
    exact ⟨by omega, hhigh⟩
  obtain ⟨htext, hline⟩ := RelayMessages.fromCharCodes_encode hinline
  have hbytes : ∀ text : List Char, (∀ c ∈ text, Inline c) → (Utf8.encode text).length = text.length := by
    intro text
    induction text with
    | nil => exact fun _ => rfl
    | cons c text ih =>
      intro hc
      have hascii : c.toNat < 0x80 := (hc c List.mem_cons_self).2
      rw [Utf8.encode_cons, Utf8.encode_ascii hascii, List.length_append, ih fun d hd =>
        hc d (List.mem_cons_of_mem _ hd), List.length_singleton, List.length_cons, Nat.add_comm]
  refine ⟨?trimmed, hline, ?printable, ?fits⟩
  case trimmed =>
    have hspace : ∀ c ∈ response.toList, (isWhitespace c || c.toNat == 0x85) = false := by
      intro c hc
      obtain ⟨hlow, hhigh⟩ := hchars c hc
      simp only [isWhitespace, Bool.or_eq_false_iff, Bool.and_eq_false_iff, decide_eq_false_iff_not,
        beq_eq_false_iff_ne]
      omega
    rw [htext, trim, String.toList_ofList, trimBy_eq_self hspace, String.ofList_toList]
  case printable =>
    apply List.any_eq_false.mpr
    intro c hc
    obtain ⟨hlow, hhigh⟩ := hchars c hc
    simp only [isUnprintable, Bool.or_eq_true, decide_eq_true_eq]
    omega
  case fits =>
    rw [writeln_eq, List.length_append, hbytes _ hinline]
    exact hlength

/-! ### One step -/

theorem toClient_inv {n : ℕ} (h : linkStep a v l (.toClient n) = some l') :
    0 < n ∧ n ≤ l.toClient.length ∧ ∃ c, a.socketStep l.client (.chunk (l.toClient.take n)) = some c ∧
      (l.client.authenticated = true → RelayAuthenticator.waiting l.client.queue = []) ∧
      l' = { l with client := c, toClient := l.toClient.drop n } := by
  obtain ⟨⟨hpos, hle, hturn⟩, h⟩ := Option.ite_none_right_eq_some.mp h
  obtain ⟨c, hc, rfl⟩ := Option.map_eq_some_iff.mp h
  exact ⟨hpos, hle, c, hc, hturn, rfl⟩

theorem toRelay_inv {n : ℕ} (h : linkStep a v l (.toRelay n) = some l') :
    0 < n ∧ n ≤ l.toRelay.length ∧ ∃ r, v.socketStep l.relay (.chunk (l.toRelay.take n)) = some r ∧
      (l.relay.authenticated = true → Srvd.Escr.waiting l.relay.queue = []) ∧
      l' = { l with relay := r, toRelay := l.toRelay.drop n } := by
  obtain ⟨⟨hpos, hle, hturn⟩, h⟩ := Option.ite_none_right_eq_some.mp h
  obtain ⟨r, hr, rfl⟩ := Option.map_eq_some_iff.mp h
  exact ⟨hpos, hle, r, hr, hturn, rfl⟩

/-- Bytes that arrive come last of those that wait. -/
theorem arrives (chunks : List (List UInt8)) (bytes : List UInt8) (n : ℕ) :
    (chunks ++ [bytes.take n]).flatten ++ bytes.drop n = chunks.flatten ++ bytes := by
  rw [List.flatten_append, List.flatten_singleton, List.append_assoc, List.take_append_drop]

theorem nonempty_concat {chunks : List (List UInt8)} {bytes : List UInt8} {n : ℕ} (hne : [] ∉ chunks)
    (hpos : 0 < n) (hle : n ≤ bytes.length) : [] ∉ chunks ++ [bytes.take n] := by
  intro hmem
  rcases List.mem_append.mp hmem with hmem | hmem
  · exact hne hmem
  · have hlength : (bytes.take n).length = 0 := by
      rw [← List.mem_singleton.mp hmem]
      rfl
    rw [List.length_take] at hlength
    omega

/-- Where nothing waits, what arrives is next on the stream. -/
theorem arrives_next {chunks : List (List UInt8)} (hwaits : chunks.flatten = []) (body : List (List UInt8))
    (bytes : List UInt8) (n : ℕ) :
    (body ++ [bytes.take n]).flatten ++ (chunks.flatten ++ bytes.drop n) =
      body.flatten ++ (chunks.flatten ++ bytes) := by
  rw [hwaits, List.nil_append, List.nil_append]
  exact arrives body bytes n

theorem Open.congr (h : Open fields l) (hrelay : l'.relay = l.relay) (htoRelay : l'.toRelay = l.toRelay)
    (hclient : l'.fromClient = l.fromClient) (hfrom : l'.fromRelay = l.fromRelay) : Open fields l' := by
  cases h with
  | confirming chunks hr hbytes hnone =>
    exact .confirming chunks (hrelay.trans hr) (by rw [htoRelay, hclient, hbytes]) (hfrom.trans hnone)
  | verified body chunks hr hbytes =>
    exact .verified body chunks (hrelay.trans hr) (by rw [htoRelay, hclient, hbytes])

/-- Bytes of the client's come to a relay that has verified the response. -/
theorem Open.toRelay (h : Open fields l) {n : ℕ} (hstep : linkStep a v l (.toRelay n) = some l') :
    Open fields l' ∧ l'.client = l.client ∧ l'.toClient = l.toClient ∧ l'.fromRelay = l.fromRelay ∧
      l'.fromClient = l.fromClient ∧ remaining l' < remaining l := by
  obtain ⟨hpos, hle, r, hr, hturn, rfl⟩ := toRelay_inv hstep
  cases h with
  | confirming chunks hrelay hbytes hnone =>
    rw [hrelay, confirming_chunk] at hr
    obtain rfl := Option.some.inj hr
    refine ⟨.confirming _ rfl ?_ hnone, rfl, rfl, rfl, rfl, ?_⟩
    · exact (arrives chunks l.toRelay n).trans hbytes
    · dsimp only [remaining]
      rw [hrelay, relayLeft_confirming, relayLeft_confirming, List.length_drop,
        List.length_append, List.length_singleton]
      omega
  | verified body chunks hrelay hbytes =>
    rw [hrelay] at hr hturn
    have hwaits : chunks.flatten = [] := (waiting_relayChunks chunks).symm.trans (hturn rfl)
    rw [verified_chunk] at hr
    obtain rfl := Option.some.inj hr
    refine ⟨.verified _ chunks rfl ?_, rfl, rfl, rfl, rfl, ?_⟩
    · exact (arrives_next hwaits body l.toRelay n).trans hbytes
    · dsimp only [remaining]
      rw [hrelay, relayLeft_verified, relayLeft_verified, List.length_drop]
      omega

/-- A turn of a relay that has verified the response. -/
theorem Open.resumes (h : Open fields l) {reply : EscrReply} (hflush : reply.flush = .ok ())
    (hstep : linkStep a v l (.relayResumes reply) = some l') :
    Open fields l' ∧ l'.client = l.client ∧ l'.toClient = l.toClient ∧ l'.fromRelay = l.fromRelay ∧
      l'.fromClient = l.fromClient ∧ remaining l' < remaining l := by
  obtain ⟨r, hr, rfl⟩ := Option.map_eq_some_iff.mp hstep
  cases h with
  | confirming chunks hrelay hbytes hnone =>
    rw [hrelay, confirming_resumes hflush] at hr
    obtain rfl := Option.some.inj hr
    have hsilent : ((EscrHandshake.verified fields [] chunks).written.drop l.relay.written.length).flatMap
        (bytesWritten v.challenge) = [] := by
      rw [hrelay]
      rfl
    rw [hsilent, List.append_nil]
    refine ⟨.verified [] chunks rfl hbytes, rfl, rfl, rfl, rfl, ?_⟩
    dsimp only [remaining]
    rw [hrelay, relayLeft_confirming, relayLeft_verified]
    omega
  | verified body chunks hrelay hbytes =>
    cases chunks with
    | nil =>
      rw [hrelay] at hr
      cases hr
    | cons chunk chunks =>
      rw [hrelay, verified_resumes] at hr
      obtain rfl := Option.some.inj hr
      have hsilent : ((EscrHandshake.verified fields (body ++ [chunk]) chunks).written.drop l.relay.written.length).flatMap
          (bytesWritten v.challenge) = [] := by
        rw [hrelay]
        rfl
      rw [hsilent, List.append_nil]
      refine ⟨.verified (body ++ [chunk]) chunks rfl ?_, rfl, rfl, rfl, rfl, ?_⟩
      · rw [← hbytes, List.flatten_append, List.flatten_singleton, List.flatten_cons, List.append_assoc,
          List.append_assoc]
      · dsimp only [remaining]
        rw [hrelay, relayLeft_verified, relayLeft_verified, List.length_cons]
        omega

/-- A phase in which the relay has verified the response goes on with it. -/
theorem Open.phase (ho : Open fields l') (hc : l'.client = l.client) (hto : l'.toClient = l.toClient)
    (hfrom : l'.fromRelay = l.fromRelay) (hsent : l'.fromClient = l.fromClient) (h : Phase a v fields l)
    (hopen : Open fields l) : Phase a v fields l' := by
  have hnot : ∀ buffer chunks, l.relay ≠ hearing buffer chunks := by
    intro buffer chunks hr
    cases hopen with
    | confirming _ hrelay => exact absurd (congrArg Srvd.Escr.Socket.consumed (hr.symm.trans hrelay)) nofun
    | verified _ _ hrelay => exact absurd (congrArg Srvd.Escr.Socket.consumed (hr.symm.trans hrelay)) nofun
  cases h with
  | challenged _ _ _ _ _ _ hr => exact absurd hr (hnot [] [])
  | responding _ _ hr => exact absurd hr (hnot [] [])
  | answered _ _ buffer chunks _ _ _ hr => exact absurd hr (hnot buffer chunks)
  | checking _ _ _ _ _ hr =>
    cases hopen with
    | confirming _ hrelay => exact absurd (congrArg Srvd.Escr.Socket.consumed (hr.symm.trans hrelay)) nofun
    | verified _ _ hrelay => exact absurd (congrArg Srvd.Escr.Socket.consumed (hr.symm.trans hrelay)) nofun
  | confirmed line flushing buffer chunks hclient hbytes hline _ hsent' =>
    exact .confirmed line flushing buffer chunks (hc.trans hclient) (by rw [hto, hfrom, hbytes]) hline ho
      (hsent.trans hsent')
  | relaying line buffer body chunks hclient hbytes =>
    exact .relaying line buffer body chunks (hc.trans hclient) (by rw [hto, hfrom, hbytes]) ho

/-- Bytes reach the client. -/
theorem Phase.toClient (h : Phase a v fields l) {n : ℕ} (hstep : linkStep a v l (.toClient n) = some l') :
    Phase a v fields l' ∧ remaining l' < remaining l := by
  obtain ⟨hpos, hle, c, hc, hturn, rfl⟩ := toClient_inv hstep
  have hnone : l.toClient ≠ [] := by
    intro hnil
    rw [hnil, List.length_nil] at hle
    omega
  cases h with
  | challenged buffer chunks hclient hbytes hline hne hr htoRelay hsent =>
    rw [hclient, reading_chunk] at hc
    obtain rfl := Option.some.inj hc
    refine ⟨.challenged buffer _ rfl ?_ hline (nonempty_concat hne hpos hle) hr htoRelay hsent, ?_⟩
    · rw [arrives]
      exact hbytes
    · dsimp only [remaining]
      rw [hclient, clientLeft_reading, clientLeft_reading, List.length_drop, List.length_append,
        List.length_singleton]
      omega
  | responding _ htoClient => exact absurd htoClient hnone
  | answered _ _ _ _ _ _ htoClient => exact absurd htoClient hnone
  | checking _ _ _ _ htoClient => exact absurd htoClient hnone
  | confirmed line flushing buffer chunks hclient hbytes hline hopen hsent =>
    rw [hclient, responded_chunk] at hc
    obtain rfl := Option.some.inj hc
    refine ⟨.confirmed line flushing buffer _ rfl ?_ hline (hopen.congr rfl rfl rfl rfl) hsent, ?_⟩
    · rw [arrives]
      exact hbytes
    · dsimp only [remaining]
      rw [hclient, clientLeft_responded, clientLeft_responded, List.length_drop, List.length_append,
        List.length_singleton]
      omega
  | relaying line buffer body chunks hclient hbytes hopen =>
    rw [hclient] at hc hturn
    have hwaits : chunks.flatten = [] := (waiting_clientChunks chunks).symm.trans (hturn rfl)
    rw [authenticated_chunk] at hc
    obtain rfl := Option.some.inj hc
    refine ⟨.relaying line buffer _ chunks rfl ?_ (hopen.congr rfl rfl rfl rfl), ?_⟩
    · exact (arrives_next hwaits body l.toClient n).trans hbytes
    · dsimp only [remaining]
      rw [hclient, clientLeft_authenticated, clientLeft_authenticated, List.length_drop]
      omega

/-- Bytes reach the relay. -/
theorem Phase.toRelay (h : Phase a v fields l) {n : ℕ} (hstep : linkStep a v l (.toRelay n) = some l') :
    Phase a v fields l' ∧ remaining l' < remaining l := by
  have hgoesOn : ∀ hopen : Open fields l, Phase a v fields l' ∧ remaining l' < remaining l := by
    intro hopen
    obtain ⟨ho, hc, hto, hfrom, hsent, hless⟩ := hopen.toRelay hstep
    exact ⟨ho.phase hc hto hfrom hsent h hopen, hless⟩
  obtain ⟨hpos, hle, r, hr, hturn, rfl⟩ := toRelay_inv hstep
  have hnone : l.toRelay ≠ [] := by
    intro hnil
    rw [hnil, List.length_nil] at hle
    omega
  cases h with
  | challenged _ _ _ _ _ _ _ htoRelay => exact absurd htoRelay hnone
  | responding _ _ _ htoRelay => exact absurd htoRelay hnone
  | answered response flushing buffer chunks hresponse hc htoClient hrelay hbytes hline hne hsent =>
    rw [hrelay, hearing_chunk] at hr
    obtain rfl := Option.some.inj hr
    refine ⟨.answered response flushing buffer _ hresponse hc htoClient rfl ?_ hline
      (nonempty_concat hne hpos hle) hsent, ?_⟩
    · rw [arrives]
      exact hbytes
    · dsimp only [remaining]
      rw [hrelay, relayLeft_hearing, relayLeft_hearing, List.length_drop, List.length_append,
        List.length_singleton]
      omega
  | checking _ _ _ _ _ _ htoRelay => exact absurd htoRelay hnone
  | confirmed _ _ _ _ _ _ _ hopen => exact hgoesOn hopen
  | relaying _ _ _ _ _ _ hopen => exact hgoesOn hopen

/-- Bytes that are none leave no chunk. -/
theorem no_chunks {chunks : List (List UInt8)} {excess rest : List UInt8} (hne : [] ∉ chunks)
    (h : excess ++ (chunks.flatten ++ rest) = []) : excess = [] ∧ chunks = [] ∧ rest = [] := by
  obtain ⟨hexcess, h⟩ := List.append_eq_nil_iff.mp h
  obtain ⟨hchunks, hrest⟩ := List.append_eq_nil_iff.mp h
  refine ⟨hexcess, ?_, hrest⟩
  cases chunks with
  | nil => rfl
  | cons chunk chunks =>
    rw [List.flatten_cons] at hchunks
    exact absurd (List.mem_cons.mpr (Or.inl (List.append_eq_nil_iff.mp hchunks).1.symm)) hne

/-- The client's end after a turn that writes nothing. -/
theorem silent_client {c : Authentication} (h : c.written = l.client.written) :
    l.toRelay ++ (c.written.drop l.client.written.length).flatMap (fun line => Utf8.encode line.toList) =
      l.toRelay := by
  rw [h, List.drop_length, List.flatMap_nil, List.append_nil]

theorem silent_relay {r : Srvd.Escr.Socket} (h : r.written = l.relay.written) :
    l.toClient ++ (r.written.drop l.relay.written.length).flatMap (bytesWritten v.challenge) = l.toClient := by
  rw [h, List.drop_length, List.flatMap_nil, List.append_nil]

/-- A client that waits for the challenge has its next chunk. -/
theorem Phase.reads (hsound : Sound a v) {buffer chunk : List UInt8} {chunks : List (List UInt8)}
    {reply : RelayAuthenticator.Reply} (hc : l.client = reading buffer (chunk :: chunks))
    (hbytes : buffer ++ ((chunk :: chunks).flatten ++ l.toClient) = writeln v.challenge)
    (hne : [] ∉ chunk :: chunks) (hr : l.relay = hearing [] []) (htoRelay : l.toRelay = [])
    (hsent : l.fromClient = [] ∧ l.fromRelay = []) (hstep : linkStep a v l (.clientResumes reply) = some l') :
    Phase a v fields l' ∧ remaining l' < remaining l := by
  obtain ⟨c, hturn, rfl⟩ := Option.map_eq_some_iff.mp hstep
  obtain ⟨htext, hline⟩ := RelayMessages.fromCharCodes_encode hsound.challenge
  have hrest : [] ∉ chunks := fun hmem => hne (List.mem_cons_of_mem _ hmem)
  rw [List.flatten_cons, List.append_assoc, ← List.append_assoc, writeln_eq] at hbytes
  rw [hc] at hturn
  rcases line_read hline hbytes with ⟨hnone, hbuffer⟩ | ⟨excess, hsome, hexcess⟩
  · rw [reading_resumes reply hnone] at hturn
    obtain rfl := Option.some.inj hturn
    rw [silent_client (by rw [hc]; rfl)]
    refine ⟨.challenged _ chunks rfl ?_ hbuffer hrest hr htoRelay hsent, ?_⟩
    · rw [writeln_eq]
      exact hbytes
    · dsimp only [remaining]
      rw [hc, clientLeft_reading, clientLeft_reading, List.length_cons]
      omega
  · -- the challenge is all there is to come
    obtain ⟨rfl, rfl, hnothing⟩ := no_chunks hrest hexcess
    rw [reading_challenged reply hsome, htext, String.ofList_toList] at hturn
    obtain rfl := Option.some.inj hturn
    rw [silent_client (by rw [hc]; rfl)]
    refine ⟨.responding rfl hnothing hr htoRelay hsent, ?_⟩
    dsimp only [remaining]
    rw [hc, clientLeft_reading, clientLeft_responding, List.length_singleton]
    omega

/-- A client that has responded has its next chunk. -/
theorem Phase.reads_ok {line : String} {buffer chunk : List UInt8} {chunks : List (List UInt8)}
    {reply : RelayAuthenticator.Reply} (hc : l.client = responded line false buffer (chunk :: chunks))
    (hbytes : buffer ++ ((chunk :: chunks).flatten ++ l.toClient) = writeln "ok" ++ l.fromRelay)
    (hopen : Open fields l) (hsent : l.fromClient = [])
    (hstep : linkStep a v l (.clientResumes reply) = some l') :
    Phase a v fields l' ∧ remaining l' < remaining l := by
  obtain ⟨c, hturn, rfl⟩ := Option.map_eq_some_iff.mp hstep
  have hinline : ∀ c ∈ "ok".toList, Inline c := by
    intro c hc
    rcases List.mem_pair.mp hc with rfl | rfl
    · exact ⟨by decide, by decide⟩
    · exact ⟨by decide, by decide⟩
  obtain ⟨htext, hline⟩ := RelayMessages.fromCharCodes_encode hinline
  have hwhole : writeln "ok" ++ l.fromRelay = Utf8.encode "ok".toList ++ newline :: l.fromRelay := by
    rw [writeln_eq, List.append_assoc]
    rfl
  rw [List.flatten_cons, List.append_assoc, ← List.append_assoc, hwhole] at hbytes
  rw [hc] at hturn
  rcases line_read hline hbytes with ⟨hnone, hbuffer⟩ | ⟨excess, hsome, hexcess⟩
  · rw [responded_resumes reply hnone] at hturn
    obtain rfl := Option.some.inj hturn
    rw [silent_client (by rw [hc]; rfl)]
    refine ⟨.confirmed line false _ chunks rfl ?_ hbuffer (hopen.congr rfl rfl rfl rfl) hsent, ?_⟩
    · rw [hwhole]
      exact hbytes
    · dsimp only [remaining]
      rw [hc, clientLeft_responded, clientLeft_responded, List.length_cons]
      omega
  · rw [responded_ok reply hsome (htext.trans String.ofList_toList)] at hturn
    obtain rfl := Option.some.inj hturn
    rw [silent_client (by rw [hc]; rfl)]
    refine ⟨.relaying line excess _ chunks rfl ?_ (hopen.congr rfl rfl rfl rfl), ?_⟩
    · rw [← hexcess]
      by_cases hnil : excess = []
      · rw [if_pos hnil, hnil]
        rfl
      · rw [if_neg hnil, List.flatten_singleton]
    · dsimp only [remaining]
      rw [hc, clientLeft_responded, clientLeft_authenticated, List.length_cons]
      omega

/-- A turn of the client. -/
theorem Phase.clientResumes (hsound : Sound a v) (h : Phase a v fields l) {reply : RelayAuthenticator.Reply}
    (hworks : Works a v fields (.clientResumes reply)) (hstep : linkStep a v l (.clientResumes reply) = some l') :
    Phase a v fields l' ∧ remaining l' < remaining l := by
  obtain ⟨hwrite, hflush, hsixteen, made, hmade⟩ := hworks
  have hidle : ∀ c, a.socketStep l.client (.resume reply) = some c → l.client.queue ≠ [] := by
    intro c hturn hnil
    rw [RelayAuthenticatorESCR.socketStep, hnil] at hturn
    cases hturn
  -- while the response is being flushed, nothing else happens at the client
  have hflushes : ∀ line buffer chunks, l.client = responded line true buffer chunks →
      l' = { l with client := responded line false buffer chunks } ∧ remaining l' < remaining l := by
    intro line buffer chunks hc
    obtain ⟨c, hturn, rfl⟩ := Option.map_eq_some_iff.mp hstep
    rw [hc, responded_flushed hflush] at hturn
    obtain rfl := Option.some.inj hturn
    rw [silent_client (by rw [hc]; rfl)]
    refine ⟨rfl, ?_⟩
    dsimp only [remaining]
    rw [hc, clientLeft_responded, clientLeft_responded, if_pos rfl, if_neg Bool.false_ne_true]
    omega
  cases h with
  | challenged buffer chunks hc hbytes hline hne hr htoRelay hsent =>
    cases chunks with
    | nil =>
      obtain ⟨c, hturn, -⟩ := Option.map_eq_some_iff.mp hstep
      exact absurd (by rw [hc]; rfl) (hidle c hturn)
    | cons chunk chunks => exact Phase.reads hsound hc hbytes hne hr htoRelay hsent hstep
  | responding hc htoClient hr htoRelay hsent =>
    obtain ⟨c, hturn, rfl⟩ := Option.map_eq_some_iff.mp hstep
    rw [hc, responding_resumes hmade hwrite] at hturn
    obtain rfl := Option.some.inj hturn
    obtain ⟨-, -, -, hfits⟩ := trim_response hsound ⟨reply.iv, hsixteen, hmade⟩
    have hwritten : ((responded (made ++ "\n") true [] []).written.drop l.client.written.length).flatMap
        (fun line => Utf8.encode line.toList) = writeln made := by
      rw [hc]
      exact List.flatMap_singleton _ _
    rw [hwritten, htoRelay, List.nil_append]
    refine ⟨.answered made true [] [] ⟨reply.iv, hsixteen, hmade⟩ rfl htoClient hr rfl List.not_mem_nil
      List.not_mem_nil hsent, ?_⟩
    dsimp only [remaining]
    rw [hc, htoRelay, clientLeft_responding, clientLeft_responded, if_pos rfl, List.length_nil, List.length_nil]
    omega
  | answered response flushing buffer chunks hresponse hc htoClient hr hbytes hline hne hsent =>
    cases flushing with
    | false =>
      obtain ⟨c, hturn, -⟩ := Option.map_eq_some_iff.mp hstep
      exact absurd (by rw [hc]; rfl) (hidle c hturn)
    | true =>
      obtain ⟨rfl, hless⟩ := hflushes _ _ _ hc
      exact ⟨.answered response false buffer chunks hresponse rfl htoClient hr hbytes hline hne hsent, hless⟩
  | checking response flushing hresponse hc htoClient hr htoRelay hsent =>
    cases flushing with
    | false =>
      obtain ⟨c, hturn, -⟩ := Option.map_eq_some_iff.mp hstep
      exact absurd (by rw [hc]; rfl) (hidle c hturn)
    | true =>
      obtain ⟨rfl, hless⟩ := hflushes _ _ _ hc
      exact ⟨.checking response false hresponse rfl htoClient hr htoRelay hsent, hless⟩
  | confirmed line flushing buffer chunks hc hbytes hline hopen hsent =>
    cases flushing with
    | true =>
      obtain ⟨rfl, hless⟩ := hflushes _ _ _ hc
      exact ⟨.confirmed line false buffer chunks rfl hbytes hline (hopen.congr rfl rfl rfl rfl) hsent, hless⟩
    | false =>
      cases chunks with
      | nil =>
        obtain ⟨c, hturn, -⟩ := Option.map_eq_some_iff.mp hstep
        exact absurd (by rw [hc]; rfl) (hidle c hturn)
      | cons chunk chunks => exact Phase.reads_ok hc hbytes hopen hsent hstep
  | relaying line buffer body chunks hc hbytes hopen =>
    obtain ⟨c, hturn, rfl⟩ := Option.map_eq_some_iff.mp hstep
    cases chunks with
    | nil => exact absurd (by rw [hc]; rfl) (hidle c hturn)
    | cons chunk chunks =>
      rw [hc, authenticated_resumes] at hturn
      obtain rfl := Option.some.inj hturn
      rw [silent_client (by rw [hc]; rfl)]
      refine ⟨.relaying line buffer _ chunks rfl ?_ (hopen.congr rfl rfl rfl rfl), ?_⟩
      · rw [← hbytes, List.flatten_append, List.flatten_singleton, List.flatten_cons, List.append_assoc,
          List.append_assoc]
      · dsimp only [remaining]
        rw [hc, clientLeft_authenticated, clientLeft_authenticated, List.length_cons]
        omega

/-- A turn of the relay. -/
theorem Phase.relayResumes (hsound : Sound a v) (h : Phase a v fields l) {reply : EscrReply}
    (hworks : Works a v fields (.relayResumes reply)) (hstep : linkStep a v l (.relayResumes reply) = some l') :
    Phase a v fields l' ∧ remaining l' < remaining l := by
  obtain ⟨hflush, hfails, hverifies⟩ := hworks
  have hgoesOn : ∀ hopen : Open fields l, Phase a v fields l' ∧ remaining l' < remaining l := by
    intro hopen
    obtain ⟨ho, hc, hto, hfrom, hsent, hless⟩ := hopen.resumes hflush hstep
    exact ⟨ho.phase hc hto hfrom hsent h hopen, hless⟩
  have hbusy : ∀ buffer, l.relay ≠ hearing buffer [] := by
    intro buffer hr
    obtain ⟨r, hturn, -⟩ := Option.map_eq_some_iff.mp hstep
    rw [hr] at hturn
    cases hturn
  cases h with
  | challenged _ _ _ _ _ _ hr => exact absurd hr (hbusy [])
  | responding _ _ hr => exact absurd hr (hbusy [])
  | answered response flushing buffer chunks hresponse hc htoClient hr hbytes hline hne hsent =>
    obtain ⟨r, hturn, rfl⟩ := Option.map_eq_some_iff.mp hstep
    obtain ⟨htext, hnewline, -, hlength⟩ := trim_response hsound hresponse
    cases chunks with
    | nil => exact absurd hr (hbusy buffer)
    | cons chunk chunks =>
      have hrest : [] ∉ chunks := fun hmem => hne (List.mem_cons_of_mem _ hmem)
      rw [List.flatten_cons, List.append_assoc, ← List.append_assoc] at hbytes
      have hfits : buffer.length + chunk.length ≤ maxAuthBufferLength := by
        have hwhole := congrArg List.length hbytes
        rw [List.length_append, List.length_append] at hwhole
        omega
      rw [writeln_eq] at hbytes
      rw [hr] at hturn
      rcases line_read hnewline hbytes with ⟨hnone, hbuffer⟩ | ⟨excess, hsome, hexcess⟩
      · rw [hearing_resumes reply hfits hnone] at hturn
        obtain rfl := Option.some.inj hturn
        rw [silent_relay (by rw [hr]; rfl)]
        refine ⟨.answered response flushing _ chunks hresponse hc htoClient rfl ?_ hbuffer hrest hsent, ?_⟩
        · rw [writeln_eq]
          exact hbytes
        · dsimp only [remaining]
          rw [hr, relayLeft_hearing, relayLeft_hearing, List.length_cons]
          omega
      · -- the response is all the client sends before it has its answer
        obtain ⟨rfl, rfl, hnothing⟩ := no_chunks hrest hexcess
        rw [hearing_answered reply hfits hsome, htext] at hturn
        obtain rfl := Option.some.inj hturn
        rw [silent_relay (by rw [hr]; rfl)]
        refine ⟨.checking response flushing hresponse hc htoClient rfl hnothing hsent, ?_⟩
        dsimp only [remaining]
        rw [hr, relayLeft_hearing, relayLeft_verifying, List.length_singleton]
        omega
  | checking response flushing hresponse hc htoClient hr htoRelay hsent =>
    obtain ⟨r, hturn, rfl⟩ := Option.map_eq_some_iff.mp hstep
    obtain ⟨-, -, hprintable, -⟩ := trim_response hsound hresponse
    rw [hr, verifying_resumes hprintable hfails (hverifies response hresponse)] at hturn
    obtain rfl := Option.some.inj hturn
    have hwritten : ((confirming fields []).written.drop l.relay.written.length).flatMap
        (bytesWritten v.challenge) = writeln "ok" := by
      rw [hr]
      exact List.flatMap_singleton _ _
    have hthree : (writeln "ok").length = 3 := by decide
    rw [hwritten, htoClient, List.nil_append]
    refine ⟨.confirmed _ flushing [] [] hc ?_ List.not_mem_nil (.confirming [] rfl ?_ hsent.2) hsent.1, ?_⟩
    · rw [hsent.2, List.append_nil]
      rfl
    · rw [htoRelay, hsent.1]
      rfl
    · dsimp only [remaining]
      rw [hr, htoClient, relayLeft_verifying, relayLeft_confirming, hthree, List.length_nil, List.length_nil]
      omega
  | confirmed _ _ _ _ _ _ _ hopen => exact hgoesOn hopen
  | relaying _ _ _ _ _ _ hopen => exact hgoesOn hopen

/-- The client sends what it likes once it has authenticated. -/
theorem Phase.clientSends (h : Phase a v fields l) {data : List UInt8}
    (hstep : linkStep a v l (.clientSends data) = some l') : Phase a v fields l' := by
  have hwaits : l.client.completer ≠ none := by
    intro hnone
    rw [linkStep, hnone] at hstep
    cases hstep
  cases h with
  | challenged _ _ hc => exact absurd (by rw [hc]; rfl) hwaits
  | responding hc => exact absurd (by rw [hc]; rfl) hwaits
  | answered _ _ _ _ _ hc => exact absurd (by rw [hc]; rfl) hwaits
  | checking _ _ _ hc => exact absurd (by rw [hc]; rfl) hwaits
  | confirmed _ _ _ _ hc => exact absurd (by rw [hc]; rfl) hwaits
  | relaying line buffer body chunks hc hbytes hopen =>
    have hdone : l.client.completer = some (.ok ()) := by
      rw [hc]
      rfl
    rw [linkStep, hdone] at hstep
    obtain rfl := Option.some.inj hstep
    refine .relaying line buffer body chunks hc hbytes ?_
    cases hopen with
    | confirming chunks hr hbytes hnone =>
      refine .confirming chunks hr ?_ hnone
      rw [← List.append_assoc, hbytes]
    | verified body chunks hr hbytes =>
      refine .verified body chunks hr ?_
      rw [← List.append_assoc, ← List.append_assoc, List.append_assoc body.flatten, hbytes]

/-- So does the relay, of what comes from the other side. -/
theorem Phase.relaySends (h : Phase a v fields l) {data : List UInt8}
    (hstep : linkStep a v l (.relaySends data) = some l') : Phase a v fields l' := by
  have hwaits : l.relay.completer ≠ none := by
    intro hnone
    rw [linkStep, hnone] at hstep
    cases hstep
  have hopens : ∀ hopen : Open fields l,
      l' = { l with toClient := l.toClient ++ data, fromRelay := l.fromRelay ++ data } ∧ Open fields l' := by
    intro hopen
    cases hopen with
    | confirming chunks hr => exact absurd (by rw [hr]; rfl) hwaits
    | verified body chunks hr hbytes =>
      have hdone : l.relay.completer = some (.ok ()) := by
        rw [hr]
        rfl
      rw [linkStep, hdone] at hstep
      obtain rfl := Option.some.inj hstep
      exact ⟨rfl, .verified body chunks hr hbytes⟩
  cases h with
  | challenged _ _ _ _ _ _ hr => exact absurd (by rw [hr]; rfl) hwaits
  | responding _ _ hr => exact absurd (by rw [hr]; rfl) hwaits
  | answered _ _ _ _ _ _ _ hr => exact absurd (by rw [hr]; rfl) hwaits
  | checking _ _ _ _ _ hr => exact absurd (by rw [hr]; rfl) hwaits
  | confirmed line flushing buffer chunks hc hbytes hline hopen hsent =>
    obtain ⟨rfl, ho⟩ := hopens hopen
    refine .confirmed line flushing buffer chunks hc ?_ hline ho hsent
    rw [← List.append_assoc, ← List.append_assoc, List.append_assoc buffer, hbytes, List.append_assoc]
  | relaying line buffer body chunks hc hbytes hopen =>
    obtain ⟨rfl, ho⟩ := hopens hopen
    refine .relaying line buffer body chunks hc ?_ ho
    rw [← List.append_assoc, ← List.append_assoc, List.append_assoc body.flatten, hbytes]

/-! ### A run -/

theorem Phase.step (hsound : Sound a v) (h : Phase a v fields l) {e : Event} (hworks : Works a v fields e)
    (hstep : (link a v).step l e = some l') :
    Phase a v fields l' ∧ (e.isSend = false → remaining l' < remaining l) := by
  cases e with
  | toClient n =>
    obtain ⟨hp, hless⟩ := h.toClient hstep
    exact ⟨hp, fun _ => hless⟩
  | toRelay n =>
    obtain ⟨hp, hless⟩ := h.toRelay hstep
    exact ⟨hp, fun _ => hless⟩
  | clientResumes reply =>
    obtain ⟨hp, hless⟩ := h.clientResumes hsound hworks hstep
    exact ⟨hp, fun _ => hless⟩
  | relayResumes reply =>
    obtain ⟨hp, hless⟩ := h.relayResumes hsound hworks hstep
    exact ⟨hp, fun _ => hless⟩
  | clientSends data => exact ⟨h.clientSends hstep, nofun⟩
  | relaySends data => exact ⟨h.relaySends hstep, nofun⟩

theorem phase_start (a : RelayAuthenticatorESCR) (v : RelayAuthVerifierESCR) (fields : EscrFields) :
    Phase a v fields (start v) :=
  .challenged [] [] rfl rfl List.not_mem_nil List.not_mem_nil rfl rfl ⟨rfl, rfl⟩

theorem phase_of_run (hsound : Sound a v) {es : List Event} (hworks : ∀ e ∈ es, Works a v fields e)
    (hrun : (link a v).run (start v) es = some l) : Phase a v fields l := by
  apply (link a v).invariant_of_meets (G := fun _ e => Works a v fields e) _ (phase_start a v fields)
  · exact (link a v).meets_of_forall (fun e he _ => hworks e he) (start v)
  · exact hrun
  · intro s e t hs he hstep
    exact (hs.step hsound he hstep).1

/-- A run in which neither end sends more is no longer than what is left to be done. -/
theorem length_le_remaining (hsound : Sound a v) (h : Phase a v fields l) {es : List Event}
    (hworks : ∀ e ∈ es, Works a v fields e ∧ e.isSend = false) (hrun : (link a v).run l es = some l') :
    es.length + remaining l' ≤ remaining l := by
  induction es generalizing l with
  | nil =>
    obtain rfl := Option.some.inj hrun
    exact Nat.le_of_eq (Nat.zero_add _)
  | cons e es ih =>
    obtain ⟨m, hm, hrun⟩ := Option.bind_eq_some_iff.mp hrun
    obtain ⟨⟨he, hsend⟩, hrest⟩ := List.forall_mem_cons.mp hworks
    obtain ⟨hphase, hless⟩ := h.step hsound he hm
    have hbound := ih hphase hrest hrun
    have hone := hless hsend
    rw [List.length_cons]
    omega

/-- Neither end has refused the other, and what is on a stream is the beginning of what was sent. -/
structure Safe (fields : EscrFields) (l : Link) : Prop where
  client : ∀ e, l.client.completer ≠ some (.error e)
  relay : ∀ e, l.relay.completer ≠ some (.error e)
  kept : l.relay.destroyed = false ∧ .authFailed ∉ l.relay.written
  agreed : l.client.completer = some (.ok ()) → l.relay.fields = some fields
  toClient : l.client.sc.flatMap Delivery.content <+: l.fromRelay
  toRelay : l.relay.sc.flatMap Delivery.content <+: l.fromClient

/-- Both have authenticated, and each has what the other has sent. -/
structure Complete (fields : EscrFields) (l : Link) : Prop where
  client : l.client.completer = some (.ok ())
  relay : l.relay.completer = some (.ok ())
  fields : l.relay.fields = some fields
  toClient : l.client.sc.flatMap Delivery.content = l.fromRelay
  toRelay : l.relay.sc.flatMap Delivery.content = l.fromClient

/-- Nothing can happen unless one of the two sends more. -/
def Stuck (a : RelayAuthenticatorESCR) (v : RelayAuthVerifierESCR) (l : Link) : Prop :=
  ∀ e, e.isSend = false → (link a v).step l e = none

theorem content_map_data (body : List (List UInt8)) :
    (body.map Delivery.data).flatMap Delivery.content = body.flatten := by
  rw [List.flatMap_map]
  exact List.flatMap_id

theorem Open.safe (h : Open fields l) : (∀ e, l.relay.completer ≠ some (.error e)) ∧
    (l.relay.destroyed = false ∧ .authFailed ∉ l.relay.written) ∧ l.relay.fields = some fields ∧
    l.relay.sc.flatMap Delivery.content <+: l.fromClient := by
  have hwritten : Srvd.Written.authFailed ∉ [Srvd.Written.challenge, .ok] := by decide
  cases h with
  | confirming chunks hr =>
    rw [hr]
    exact ⟨nofun, ⟨rfl, hwritten⟩, rfl, List.nil_prefix⟩
  | verified body chunks hr hbytes =>
    rw [hr, ← hbytes]
    refine ⟨nofun, ⟨rfl, hwritten⟩, rfl, ?_⟩
    change (body.map Delivery.data).flatMap Delivery.content <+: _
    rw [content_map_data]
    exact List.prefix_append _ _

theorem Phase.safe (h : Phase a v fields l) : Safe fields l := by
  have hbefore : ∀ c : Authentication, ∀ r : Srvd.Escr.Socket, l.client = c → l.relay = r →
      c.completer = none → c.sc = [] → r.completer = none → r.destroyed = false → .authFailed ∉ r.written →
      r.sc = [] → Safe fields l := by
    intro c r hc hr hnone hsc hrnone hdestroyed hwritten hrsc
    rw [← hc] at hnone hsc
    rw [← hr] at hrnone hdestroyed hwritten hrsc
    refine ⟨?_, ?_, ⟨hdestroyed, hwritten⟩, ?_, ?_, ?_⟩
    · rw [hnone]
      exact nofun
    · rw [hrnone]
      exact nofun
    · rw [hnone]
      exact nofun
    · rw [hsc]
      exact List.nil_prefix
    · rw [hrsc]
      exact List.nil_prefix
  have hchallenge : Srvd.Written.authFailed ∉ [Srvd.Written.challenge] := by decide
  cases h with
  | challenged _ _ hc _ _ _ hr => exact hbefore _ _ hc hr rfl rfl rfl rfl hchallenge rfl
  | responding hc _ hr => exact hbefore _ _ hc hr rfl rfl rfl rfl hchallenge rfl
  | answered _ _ _ _ _ hc _ hr => exact hbefore _ _ hc hr rfl rfl rfl rfl hchallenge rfl
  | checking _ _ _ hc _ hr => exact hbefore _ _ hc hr rfl rfl rfl rfl hchallenge rfl
  | confirmed line flushing buffer chunks hc hbytes hline hopen hsent =>
    obtain ⟨hrelay, hkept, -, hstream⟩ := hopen.safe
    refine ⟨?_, hrelay, hkept, ?_, ?_, hstream⟩
    · rw [hc]
      exact nofun
    · rw [hc]
      exact nofun
    · rw [hc]
      exact List.nil_prefix
  | relaying line buffer body chunks hc hbytes hopen =>
    obtain ⟨hrelay, hkept, hfields, hstream⟩ := hopen.safe
    refine ⟨?_, hrelay, hkept, fun _ => hfields, ?_, hstream⟩
    · rw [hc]
      exact nofun
    · rw [hc, ← hbytes]
      change (body.map Delivery.data).flatMap Delivery.content <+: _
      rw [content_map_data]
      exact List.prefix_append _ _

/-- Neither end's socket has ended. -/
theorem Phase.not_ended (h : Phase a v fields l) : l.client.ended = false ∧ l.relay.ended = false := by
  have hopened : Open fields l → l.relay.ended = false := by
    intro hopen
    cases hopen with
    | confirming _ hr => rw [hr]; rfl
    | verified _ _ hr => rw [hr]; rfl
  cases h with
  | challenged _ _ hc _ _ _ hr => rw [hc, hr]; exact ⟨rfl, rfl⟩
  | responding hc _ hr => rw [hc, hr]; exact ⟨rfl, rfl⟩
  | answered _ _ _ _ _ hc _ hr => rw [hc, hr]; exact ⟨rfl, rfl⟩
  | checking _ _ _ hc _ hr => rw [hc, hr]; exact ⟨rfl, rfl⟩
  | confirmed _ _ _ _ hc _ _ hopen => rw [hc]; exact ⟨rfl, hopened hopen⟩
  | relaying _ _ _ _ hc _ hopen => rw [hc]; exact ⟨rfl, hopened hopen⟩

/-- Where nothing can happen, nothing waits and nothing is on its way. -/
theorem Phase.idle (h : Phase a v fields l) (hstuck : Stuck a v l) :
    l.client.queue = [] ∧ l.relay.queue = [] ∧ l.toClient = [] ∧ l.toRelay = [] := by
  obtain ⟨hclient, hrelay⟩ := h.not_ended
  have hc : l.client.queue = [] := by
    cases hq : l.client.queue with
    | nil => rfl
    | cons task rest =>
      have hnone := hstuck (.clientResumes ⟨[], .ok (), .ok ()⟩) rfl
      change (a.socketStep l.client _).map _ = none at hnone
      rw [RelayAuthenticatorESCR.socketStep, hq] at hnone
      cases hnone
  have hr : l.relay.queue = [] := by
    cases hq : l.relay.queue with
    | nil => rfl
    | cons task rest =>
      have hnone := hstuck (.relayResumes ⟨⟨.ok (), ⟨fun _ => false, fun _ => .ok "", fun _ _ => .ok ""⟩⟩, false⟩) rfl
      change (v.socketStep l.relay _).map _ = none at hnone
      rw [RelayAuthVerifierESCR.socketStep, hq] at hnone
      cases hnone
  refine ⟨hc, hr, ?toClient, ?toRelay⟩
  case toClient =>
    by_contra hbytes
    have hnone := hstuck (.toClient 1) rfl
    have hready : 0 < 1 ∧ 1 ≤ l.toClient.length ∧
        (l.client.authenticated = true → RelayAuthenticator.waiting l.client.queue = []) := by
      refine ⟨Nat.one_pos, List.length_pos_iff.mpr hbytes, fun _ => ?_⟩
      rw [hc]
      rfl
    change (if _ then (a.socketStep l.client (.chunk (l.toClient.take 1))).map _ else none) = none at hnone
    rw [if_pos hready, RelayAuthenticatorESCR.socketStep, hclient, if_neg Bool.false_ne_true] at hnone
    split at hnone
    · cases hnone
    · cases hnone
  case toRelay =>
    by_contra hbytes
    have hnone := hstuck (.toRelay 1) rfl
    have hready : 0 < 1 ∧ 1 ≤ l.toRelay.length ∧
        (l.relay.authenticated = true → Srvd.Escr.waiting l.relay.queue = []) := by
      refine ⟨Nat.one_pos, List.length_pos_iff.mpr hbytes, fun _ => ?_⟩
      rw [hr]
      rfl
    change (if _ then (v.socketStep l.relay (.chunk (l.toRelay.take 1))).map _ else none) = none at hnone
    rw [if_pos hready, RelayAuthVerifierESCR.socketStep, hrelay, if_neg Bool.false_ne_true] at hnone
    split at hnone
    · cases hnone
    · cases hnone

theorem eq_nil_of_clientChunks {chunks : List (List UInt8)} (h : clientChunks chunks = []) : chunks = [] :=
  List.map_eq_nil_iff.mp h

theorem eq_nil_of_relayChunks {chunks : List (List UInt8)} (h : relayChunks chunks = []) : chunks = [] :=
  List.map_eq_nil_iff.mp h

/-- A whole line cannot be in a buffer that has none. -/
theorem no_line {buffer : List UInt8} {text : String} (rest : List UInt8) (hline : newline ∉ buffer)
    (h : buffer = writeln text ++ rest) : False := by
  apply hline
  rw [h, writeln_eq]
  exact List.mem_append_left _ (List.mem_append_right _ (List.mem_singleton.mpr rfl))

/-- The two never wait for each other for good. -/
theorem Phase.complete (h : Phase a v fields l) (hstuck : Stuck a v l) : Complete fields l := by
  obtain ⟨hcq, hrq, htoClient, htoRelay⟩ := h.idle hstuck
  cases h with
  | challenged buffer chunks hc hbytes hline =>
    rw [hc] at hcq
    rw [eq_nil_of_clientChunks hcq, htoClient] at hbytes
    exact (no_line [] hline (by simpa using hbytes)).elim
  | responding hc =>
    rw [hc] at hcq
    cases hcq
  | answered response flushing buffer chunks hresponse hc htoClient hr hbytes hline =>
    rw [hr] at hrq
    rw [eq_nil_of_relayChunks hrq, htoRelay] at hbytes
    exact (no_line [] hline (by simpa using hbytes)).elim
  | checking _ _ _ _ _ hr =>
    rw [hr] at hrq
    cases hrq
  | confirmed line flushing buffer chunks hc hbytes hline =>
    rw [hc] at hcq
    obtain ⟨-, hchunks⟩ := List.append_eq_nil_iff.mp hcq
    rw [eq_nil_of_clientChunks hchunks, htoClient] at hbytes
    exact (no_line l.fromRelay hline (by simpa using hbytes)).elim
  | relaying line buffer body chunks hc hbytes hopen =>
    rw [hc] at hcq
    rw [eq_nil_of_clientChunks hcq, htoClient] at hbytes
    have hclient : l.client.sc.flatMap Delivery.content = l.fromRelay := by
      rw [hc, ← hbytes]
      change (body.map Delivery.data).flatMap Delivery.content = _
      rw [content_map_data]
      exact (List.append_nil _).symm
    cases hopen with
    | confirming _ hr =>
      rw [hr] at hrq
      cases hrq
    | verified sent waits hr hsent =>
      rw [hr] at hrq
      rw [eq_nil_of_relayChunks hrq, htoRelay] at hsent
      refine ⟨by rw [hc]; rfl, by rw [hr]; rfl, by rw [hr]; rfl, hclient, ?_⟩
      rw [hr, ← hsent]
      change (sent.map Delivery.data).flatMap Delivery.content = _
      rw [content_map_data]
      exact (List.append_nil _).symm

/-- As long as the ends have not got there, one of them can go on: every event of `P` is one that works, and
`P` has every delivery of bytes and a reply for either end. -/
theorem Phase.reaches (hsound : Sound a v) {P : Event → Prop} (hP : ∀ e, P e → Works a v fields e)
    (htoClient : ∀ n, P (.toClient n)) (htoRelay : ∀ n, P (.toRelay n)) {clientReply : RelayAuthenticator.Reply}
    (hclient : P (.clientResumes clientReply)) {relayReply : EscrReply} (hrelay : P (.relayResumes relayReply))
    (h : Phase a v fields l) :
    ∃ es l', (∀ e ∈ es, P e) ∧ (link a v).run l es = some l' ∧ Complete fields l' := by
  -- by induction on what is left to be done
  induction hn : remaining l using Nat.strongRecOn generalizing l with
  | ind n ih =>
    have hstep : ∀ e l₁, P e → e.isSend = false → (link a v).step l e = some l₁ →
        ∃ es l', (∀ e ∈ es, P e) ∧ (link a v).run l es = some l' ∧ Complete fields l' := by
      intro e l₁ he hsend hl₁
      obtain ⟨hphase, hless⟩ := h.step hsound (hP e he) hl₁
      obtain ⟨es, l', hes, hrun, hcomplete⟩ := ih (remaining l₁) (hn ▸ hless hsend) hphase rfl
      exact ⟨e :: es, l', List.forall_mem_cons.mpr ⟨he, hes⟩, ((link a v).run_step hl₁ es).trans hrun, hcomplete⟩
    by_cases hmore : ∃ e, e.isSend = false ∧ (link a v).step l e ≠ none
    · obtain ⟨e, hsend, hsome⟩ := hmore
      -- what can be done for some reply can be done for the one in `P`
      have hturn : ∃ e', P e' ∧ e'.isSend = false ∧ (link a v).step l e' ≠ none := by
        cases e with
        | toClient n => exact ⟨_, htoClient n, rfl, hsome⟩
        | toRelay n => exact ⟨_, htoRelay n, rfl, hsome⟩
        | clientSends data => cases hsend
        | relaySends data => cases hsend
        | clientResumes reply =>
          refine ⟨_, hclient, rfl, fun hnone => hsome ?_⟩
          have hnone : a.socketStep l.client (.resume clientReply) = none := Option.map_eq_none_iff.mp hnone
          apply Option.map_eq_none_iff.mpr
          rw [RelayAuthenticatorESCR.socketStep] at hnone ⊢
          cases hq : l.client.queue with
          | nil => rfl
          | cons task rest =>
            rw [hq] at hnone
            cases hnone
        | relayResumes reply =>
          refine ⟨_, hrelay, rfl, fun hnone => hsome ?_⟩
          have hnone : v.socketStep l.relay (.resume relayReply) = none := Option.map_eq_none_iff.mp hnone
          apply Option.map_eq_none_iff.mpr
          rw [RelayAuthVerifierESCR.socketStep] at hnone ⊢
          cases hq : l.relay.queue with
          | nil => rfl
          | cons task rest =>
            rw [hq] at hnone
            cases hnone
      obtain ⟨e', he', hsend', hsome'⟩ := hturn
      obtain ⟨l₁, hl₁⟩ := Option.ne_none_iff_exists'.mp hsome'
      exact hstep e' l₁ he' hsend' hl₁
    · have hstuck : Stuck a v l := by
        intro e hsend
        by_contra hsome
        exact hmore ⟨e, hsend, hsome⟩
      exact ⟨[], l, List.forall_mem_nil _, rfl, h.complete hstuck⟩

/-! ### With an enrollment's key -/

/-- An await that ends as it should: the client can write its response, and the relay knows the client's session
and the record of its enrollment. -/
def Helped (a : RelayAuthenticatorESCR) (v : RelayAuthVerifierESCR) (signer : ApkamSigning) (atSign : String) :
    Event → Prop
  | .clientResumes reply => reply.write = .ok () ∧ reply.flush = .ok () ∧ reply.iv.length = 16 ∧
      ∃ response, a.responseToChallenge v.challenge reply.iv = .ok response
  | .relayResumes reply => reply.flush = .ok () ∧ reply.randomlyFails = false ∧
      RelayAuthenticator.Trusts v.toRuntime reply.helper a.toEscrSdk signer a.sessionId a.relayAuthAesKey atSign
  | _ => True

/-- A session whose id has no blank, and responses that the relay has room for. -/
structure Fits (a : RelayAuthenticatorESCR) (v : RelayAuthVerifierESCR) : Prop where
  readable : RelayAuthenticator.Readable a v.challenge
  blank : ' ' ∉ a.sessionId.toList
  length : ∀ response, Answers a v response → response.length < maxAuthBufferLength

theorem sound_of_fits (hag : a.toEscrSdk.Agrees v.toRuntime) (h : Fits a v) : Sound a v := by
  refine ⟨h.readable.challenge.inline, fun response hanswers => ⟨?_, h.length response hanswers⟩⟩
  obtain ⟨iv, -, hresponse⟩ := hanswers
  obtain ⟨s, kid, ciphertext, hmade⟩ := RelayAuthenticator.made_of_response hag h.readable hresponse
  intro c hc
  rw [hmade.response_eq, String.toList_append, String.toList_append] at hc
  rcases List.mem_append.mp hc with hc | hc
  · rcases List.mem_append.mp hc with hc | hc
    · obtain ⟨hlow, hhigh⟩ := h.readable.sessionId.inline c hc
      have hne : c.toNat ≠ 32 := by
        intro heq
        have hblank : c = ' ' := by
          rw [← Char.ofNat_toNat c, heq]
        exact h.blank (hblank ▸ hc)
      exact ⟨by omega, hhigh⟩
    · rw [List.mem_singleton.mp hc]
      exact ⟨by decide, by decide⟩
  · rw [CSrv.toList_fromCharCodes] at hc
    obtain ⟨b, hb, rfl⟩ := List.mem_map.mp hc
    have hcases := Base64.isChar_cases (Base64.isChar_of_mem_encode hb)
    rw [toNat_ofNat_byte]
    omega

theorem works_of_helped {sdk : RelayAuthenticator.EscrSdk} {signer : ApkamSigning}
    {sessionId relayAuthAesKey atSign : String} {isSideA : Bool} (hag : sdk.Agrees v.toRuntime)
    (ha : RelayAuthenticator.relayAuthenticatorOf sdk signer sessionId relayAuthAesKey isSideA = .ok a)
    (hread : RelayAuthenticator.Readable a v.challenge) {e : Event} (h : Helped a v signer atSign e) :
    Works a v ⟨sessionId, isSideA, atSign, signer.publicSigningKeyUri⟩ e := by
  have hsame : a.toEscrSdk = sdk ∧ a.sessionId = sessionId ∧ a.relayAuthAesKey = relayAuthAesKey := by
    obtain ⟨key, -, hmade⟩ := bind_eq_ok.mp ha
    rw [← Except.ok.inj hmade]
    exact ⟨rfl, rfl, rfl⟩
  obtain ⟨hsdk, hsession, hkey⟩ := hsame
  cases e with
  | clientResumes reply => exact h
  | relayResumes reply =>
    obtain ⟨hflush, hfails, htrusts⟩ := h
    rw [hsdk, hsession, hkey] at htrusts
    refine ⟨hflush, hfails, fun response ⟨iv, _, hresponse⟩ => ?_⟩
    exact RelayAuthenticator.relay_verifies_response hag ha hread htrusts hresponse
  | _ => exact trivial

/-- A side that authenticates by its enrollment's key and the relay that challenges it come together, over every
connection: neither refuses the other, whatever has been sent comes in order and whole, they stop only where
both are through, and unless more is sent they stop after finitely many steps. -/
theorem escr_handshake {sdk : RelayAuthenticator.EscrSdk} {signer : ApkamSigning}
    {sessionId relayAuthAesKey atSign : String} {isSideA : Bool} (hag : sdk.Agrees v.toRuntime)
    (ha : RelayAuthenticator.relayAuthenticatorOf sdk signer sessionId relayAuthAesKey isSideA = .ok a)
    (hfits : Fits a v) {es : List Event} (hes : ∀ e ∈ es, Helped a v signer atSign e)
    (hrun : (link a v).run (start v) es = some l) :
    Safe ⟨sessionId, isSideA, atSign, signer.publicSigningKeyUri⟩ l ∧
    (Stuck a v l → Complete ⟨sessionId, isSideA, atSign, signer.publicSigningKeyUri⟩ l) ∧
    ∀ more l', (∀ e ∈ more, Helped a v signer atSign e ∧ e.isSend = false) →
      (link a v).run l more = some l' → more.length ≤ remaining l := by
  have hsdk : a.toEscrSdk = sdk := by
    obtain ⟨key, -, hmade⟩ := bind_eq_ok.mp ha
    rw [← Except.ok.inj hmade]
  have hsound : Sound a v := by
    apply sound_of_fits _ hfits
    rw [hsdk]
    exact hag
  have hworks : ∀ e, Helped a v signer atSign e →
      Works a v ⟨sessionId, isSideA, atSign, signer.publicSigningKeyUri⟩ e :=
    fun e he => works_of_helped hag ha hfits.readable he
  have hphase := phase_of_run hsound (fun e he => hworks e (hes e he)) hrun
  refine ⟨hphase.safe, hphase.complete, fun more l' hmore hrest => ?_⟩
  have hbound := length_le_remaining hsound hphase (fun e he => ⟨hworks e (hmore e he).1, (hmore e he).2⟩) hrest
  omega

end run

/-! ### A handshake of side A with RSA-2048 -/

theorem length_fromCharCodes (bytes : List UInt8) : (fromCharCodes bytes).length = bytes.length := by
  rw [fromCharCodes, String.length_ofList, List.length_map]

theorem length_bytesOf (text : List Char) : (RelayAuthenticator.bytesOf text).length = text.length :=
  List.length_map _

/-- Each member has its quotes, its colon and its comma. -/
theorem length_objectText (members : List (String × List Char)) :
    (Json.objectText members).length ≤ (members.map fun m => m.1.length + m.2.length + 4).sum + 2 := by
  have hmembers : (Json.membersText members).length ≤
      (members.map fun m => m.1.length + m.2.length + 4).sum + 1 := by
    induction members with
    | nil => exact Nat.le_refl _
    | cons m members ih =>
      have hkey : (Json.quote m.1).length = m.1.length + 2 := by
        rw [Json.quote, List.length_cons, List.length_append, List.length_singleton, String.length_toList]
      rw [List.map_cons, List.sum_cons]
      cases members with
      | nil =>
        rw [Json.membersText, List.length_append, List.length_cons, List.length_append, List.length_singleton, hkey]
        omega
      | cons next members =>
        rw [Json.membersText, List.length_append, List.length_cons, List.length_append, List.length_cons, hkey]
        · omega
        · exact List.cons_ne_nil next members
  rw [Json.objectText, List.length_cons]
  omega

theorem sum_quoted (fields : List (String × String)) :
    ((fields.map fun f => (f.1, Json.quote f.2)).map fun m => m.1.length + m.2.length + 4).sum =
      (fields.map fun f => f.1.length + f.2.length + 6).sum := by
  rw [List.map_map]
  apply congrArg List.sum
  apply List.map_congr_left
  intro f hf
  change f.1.length + (Json.quote f.2).length + 4 = _
  rw [Json.quote, List.length_cons, List.length_append, List.length_singleton, String.length_toList]
  omega

theorem length_textOf (fields : List (String × String)) :
    (RelayAuthenticator.textOf fields).length ≤ (fields.map fun f => f.1.length + f.2.length + 6).sum + 2 := by
  have hmembers := length_objectText (fields.map fun f => (f.1, Json.quote f.2))
  rw [sum_quoted] at hmembers
  exact hmembers

section sample
open RelayAuthenticator (escrSdk escrSigner escrRuntime escrHelper escrAuthenticator escrSdk_agrees
  escrAuthenticator_of escrEncrypt escrSignature escrSign)

def escrVerifier : RelayAuthVerifierESCR := { escrRuntime with challenge := "c" }

theorem escr_readable : RelayAuthenticator.Readable escrAuthenticator "c" :=
  ⟨RelayMessages.printable_literal (by decide), by decide, RelayMessages.printable_literal (by decide),
    RelayMessages.printable_literal (by decide)⟩

theorem length_of_escrSign {data key signature : String} (h : escrSign data key = .ok signature) :
    signature.length = 344 := by
  unfold escrSign at h
  split at h
  · rw [← Except.ok.inj h, escrSignature, length_fromCharCodes, Base64.length_encode]
    decide +kernel
  · cases h

/-- Base64 of the text with its padding. -/
theorem length_of_escrEncrypt {text ciphertext : String} (h : escrEncrypt text = .ok ciphertext) :
    ciphertext.length ≤ (text.length + 18) / 3 * 4 := by
  have hcount := Pkcs7.count_le 16 (RelayAuthenticator.bytesOf text.toList)
  have hbytes : (RelayAuthenticator.bytesOf text.toList).length = text.length :=
    (length_bytesOf _).trans String.length_toList
  unfold escrEncrypt at h
  split at h
  · rw [← Except.ok.inj h, length_fromCharCodes, Base64.length_encode, Keystream.length_crypt, Pkcs7.pad,
      List.length_append, List.length_replicate]
    omega
  · cases h

/-- The responses are about a tenth of what the relay has room for. -/
theorem escr_fits : Fits escrAuthenticator escrVerifier := by
  refine ⟨escr_readable, by decide, fun response ⟨iv, hsixteen, hresponse⟩ => ?_⟩
  have hag : escrAuthenticator.toEscrSdk.Agrees escrRuntime := escrSdk_agrees
  obtain ⟨s, kid, ciphertext, hmade⟩ := RelayAuthenticator.made_of_response hag escr_readable hresponse
  have hsigned : escrSign (String.ofList (RelayAuthenticator.textOf
      (RelayAuthenticator.payloadFields escrAuthenticator "c"))) "rsa" = .ok s := hmade.signed
  have hs : s.length = 344 := length_of_escrSign hsigned
  have hkid : kid.length = 2 := congrArg String.length (Except.ok.inj hmade.kid_eq).symm
  have hpayload : (RelayAuthenticator.textOf (RelayAuthenticator.payloadFields escrAuthenticator "c")).length ≤ 31 := by
    apply Nat.le_trans (length_textOf _)
    decide +kernel
  have henvelope : (RelayAuthenticator.envelopeText escrAuthenticator "c" s kid).length ≤ 600 := by
    apply Nat.le_trans (length_objectText _)
    have hsignature : ((RelayAuthenticator.signatureFields escrAuthenticator s kid).map
        fun f => f.1.length + f.2.length + 6).sum ≤ 440 := by
      change "s".length + s.length + 6 + _ ≤ 440
      change _ + ("ha".length + "sha256".length + 6 + ("sa".length + "rsa2048".length + 6 +
        ("sk".length + "public:_apsk.1.a.__e@alice".length + 6 + ("kid".length + kid.length + 6 + 0)))) ≤ 440
      rw [hs, hkid]
      decide +kernel
    have hone : "p".length = 1 := rfl
    rw [List.map_cons, List.sum_cons, sum_quoted]
    dsimp only
    omega
  have haes : ∀ text key iv, escrAuthenticator.aesEncryptString text key iv = escrEncrypt text := fun _ _ _ => rfl
  have hcipher : ciphertext.length ≤ 1096 := by
    apply Nat.le_trans (length_of_escrEncrypt ((haes _ _ _).symm.trans hmade.encrypted))
    rw [length_fromCharCodes, Base64.length_encode, length_bytesOf]
    omega
  have houter : (RelayAuthenticator.textOf
      (RelayAuthenticator.outerFields (fromCharCodes (Base64.encode iv)) ciphertext)).length ≤ 1137 := by
    apply Nat.le_trans (length_textOf _)
    change "iv".length + (fromCharCodes (Base64.encode iv)).length + 6 + ("e".length + ciphertext.length + 6 + 0) +
      2 ≤ 1137
    have htwo : "iv".length = 2 := rfl
    have hone : "e".length = 1 := rfl
    rw [length_fromCharCodes, Base64.length_encode, hsixteen]
    omega
  change _ < 16384
  rw [hmade.response_eq, String.length_append, String.length_append, length_fromCharCodes, Base64.length_encode,
    length_bytesOf]
  have hone : escrAuthenticator.sessionId.length + ":".length = 2 := by decide +kernel
  omega

theorem escr_handshake_sample : ∃ es l,
    (link escrAuthenticator escrVerifier).run (start escrVerifier) es = some l ∧
    l.relay.fields = some ⟨"s", true, "@alice", "public:_apsk.1.a.__e@alice"⟩ ∧
    Safe ⟨"s", true, "@alice", "public:_apsk.1.a.__e@alice"⟩ l := by
  have hrelay : Helped escrAuthenticator escrVerifier escrSigner "@alice"
      (.relayResumes ⟨⟨.ok (), escrHelper⟩, false⟩) := ⟨rfl, rfl, RelayAuthenticator.escrTrusts⟩
  have hclient : Helped escrAuthenticator escrVerifier escrSigner "@alice"
      (.clientResumes ⟨List.replicate 16 0, .ok (), .ok ()⟩) := ⟨rfl, rfl, rfl, RelayAuthenticator.escr_responds⟩
  have hworks : ∀ e, Helped escrAuthenticator escrVerifier escrSigner "@alice" e →
      Works escrAuthenticator escrVerifier ⟨"s", true, "@alice", "public:_apsk.1.a.__e@alice"⟩ e :=
    fun e he => works_of_helped escrSdk_agrees escrAuthenticator_of escr_readable he
  have hsound := sound_of_fits escrSdk_agrees escr_fits
  obtain ⟨es, l, hes, hrun, hcomplete⟩ := Phase.reaches hsound hworks (fun _ => trivial) (fun _ => trivial)
    hclient hrelay (phase_start _ _ _)
  have hhandshake := escr_handshake escrSdk_agrees escrAuthenticator_of escr_fits hes hrun
  exact ⟨es, l, hrun, hcomplete.fields, hhandshake.1⟩

end sample

end NoPorts.EscrHandshake
