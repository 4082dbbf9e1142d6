import KcpPeer.Kcp

set_option autoImplicit false

namespace KcpPeer

/-- The send queue of the `kcp` crate: `send` appends to it, `update` and `flush`
move payloads from its front to the send buffer, and no other call touches it. -/
structure SendQueue (K : Type) [Kcp K] where
  queued : K → List Bytes
  new : ∀ conv, queued (Kcp.new conv) = []
  quiet : ∀ k k', Kcp.Quiet k k' → queued k' = queued k
  setConv : ∀ k conv, queued (Kcp.setConv k conv) = queued k
  taken : ∀ k data k', Kcp.send k data = (k', .ok ()) → queued k' = queued k ++ [data]
  refused : ∀ k data k' e, Kcp.send k data = (k', .error e) → queued k' = queued k
  update : ∀ k now writer, ∃ moved, queued k = moved ++ queued (Kcp.update k now writer).1
  flush : ∀ k writer, ∃ moved, queued k = moved ++ queued (Kcp.flush k writer).1

namespace SendQueue

variable {K : Type} [Kcp K]

/-- The history of one instance: the payloads its `send` has taken, and those
that its `update` and `flush` have moved out of the queue. -/
inductive Journal (q : SendQueue K) : K → List Bytes → List Bytes → Prop
  | new (conv : UInt32) : Journal q (Kcp.new conv) [] []
  | quiet {k k' : K} {taken flushed : List Bytes} (earlier : Journal q k taken flushed)
      (call : Kcp.Quiet k k') : Journal q k' taken flushed
  | setConv {k : K} {taken flushed : List Bytes} (earlier : Journal q k taken flushed)
      (conv : UInt32) : Journal q (Kcp.setConv k conv) taken flushed
  | taken {k k' : K} {data : Bytes} {taken flushed : List Bytes}
      (earlier : Journal q k taken flushed) (call : Kcp.send k data = (k', .ok ())) :
      Journal q k' (taken ++ [data]) flushed
  | refused {k k' : K} {data : Bytes} {e : Kcp.Err K} {taken flushed : List Bytes}
      (earlier : Journal q k taken flushed) (call : Kcp.send k data = (k', .error e)) :
      Journal q k' taken flushed
  | update {k : K} {taken flushed moved : List Bytes} (earlier : Journal q k taken flushed)
      (now : UInt32) (writer : Writer)
      (out : q.queued k = moved ++ q.queued (Kcp.update k now writer).1) :
      Journal q (Kcp.update k now writer).1 taken (flushed ++ moved)
  | flush {k : K} {taken flushed moved : List Bytes} (earlier : Journal q k taken flushed)
      (writer : Writer) (out : q.queued k = moved ++ q.queued (Kcp.flush k writer).1) :
      Journal q (Kcp.flush k writer).1 taken (flushed ++ moved)

variable {q : SendQueue K}

/-- What an instance took it has flushed or still holds, in order. -/
theorem Journal.balance {k : K} {taken flushed : List Bytes} (j : q.Journal k taken flushed) :
    taken = flushed ++ q.queued k := by
  induction j with
  | new conv => rw [q.new]; rfl
  | quiet _ call ih => rw [ih, q.quiet _ _ call]
  | setConv _ conv ih => rw [ih, q.setConv]
  | taken _ call ih => rw [ih, q.taken _ _ _ call, List.append_assoc]
  | refused _ call ih => rw [ih, q.refused _ _ _ _ call]
  | update _ now writer out ih => rw [ih, out, List.append_assoc]
  | flush _ writer out ih => rw [ih, out, List.append_assoc]

theorem Journal.quiets {k k' : K} {taken flushed : List Bytes} (j : q.Journal k taken flushed)
    (calls : Kcp.Quiets k k') : q.Journal k' taken flushed := by
  induction calls with
  | refl => exact j
  | tail _ call ih => exact ih.quiet call

/-- A session starts with an empty queue. -/
theorem queued_applyTo (config : KcpConfig) (conv : UInt32) :
    q.queued (config.applyTo (Kcp.new conv)) = [] := by
  have journal := (Journal.new (q := q) conv).quiets (config.applyTo_quiets (Kcp.new conv))
  exact journal.balance.symm

/-- Further calls take more and lose nothing. -/
theorem Journal.run {k k' : K} {taken flushed bufs : List Bytes} (j : q.Journal k taken flushed)
    (calls : Kcp.Run k bufs k') :
    ∃ taken' flushed', q.Journal k' taken' flushed' ∧ taken <+: taken' := by
  induction calls generalizing taken flushed with
  | nil => exact ⟨taken, flushed, j, List.prefix_rfl⟩
  | @silent k _ _ _ call _ ih =>
      cases call with
      | quiet call => exact ih (j.quiet call)
      | send data =>
          cases called : Kcp.send k data with
          | mk k' result =>
              rw [called] at ih
              cases result with
              | error e => exact ih (j.refused called)
              | ok _ =>
                  obtain ⟨taken', flushed', j', kept⟩ := ih (j.taken called)
                  exact ⟨taken', flushed', j', (List.prefix_append _ _).trans kept⟩
  | update k now writer _ ih =>
      obtain ⟨moved, out⟩ := q.update k now writer
      exact ih (j.update now writer out)
  | flush k writer _ ih =>
      obtain ⟨moved, out⟩ := q.flush k writer
      exact ih (j.flush writer out)

end SendQueue

/-- How the `kcp` crate stamps its output. A segment gets the instance's
conversation id when it moves to the send buffer, and acknowledgements get it
when they are written. `Unsent` says that the send buffer has never been used;
`Uniform`, that every segment in it carries the instance's conversation id. -/
structure ConvStamp (K : Type) [Kcp K] where
  conv : K → UInt32
  Unsent : K → Prop
  Uniform : K → Prop
  conv_new : ∀ c, conv (Kcp.new c) = c
  conv_setConv : ∀ k c, conv (Kcp.setConv k c) = c
  conv_silent : ∀ k k', Kcp.Silent k k' → conv k' = conv k
  conv_update : ∀ k now writer, conv (Kcp.update k now writer).1 = conv k
  conv_flush : ∀ k writer, conv (Kcp.flush k writer).1 = conv k
  unsent_new : ∀ c, Unsent (Kcp.new c)
  unsent_setConv : ∀ k c, Unsent k → Unsent (Kcp.setConv k c)
  unsent_silent : ∀ k k', Kcp.Silent k k' → Unsent k → Unsent k'
  uniform_unsent : ∀ k, Unsent k → Uniform k
  uniform_silent : ∀ k k', Kcp.Silent k k' → Uniform k → Uniform k'
  uniform_update : ∀ k now writer, Uniform k → Uniform (Kcp.update k now writer).1
  uniform_flush : ∀ k writer, Uniform k → Uniform (Kcp.flush k writer).1
  update_output : ∀ k now writer, Uniform k →
    ∀ buf ∈ (Kcp.update k now writer).2.1, readConv buf = some (conv k)
  flush_output : ∀ k writer, Uniform k →
    ∀ buf ∈ (Kcp.flush k writer).2.1, readConv buf = some (conv k)

namespace ConvStamp

variable {K : Type} [Kcp K] (c : ConvStamp K)

theorem silents {k k' : K} (calls : Kcp.Silents k k') :
    c.conv k' = c.conv k ∧ (c.Unsent k → c.Unsent k') := by
  induction calls with
  | refl => exact ⟨rfl, id⟩
  | tail _ call ih =>
      exact ⟨(c.conv_silent _ _ call).trans ih.1,
        fun unsent => c.unsent_silent _ _ call (ih.2 unsent)⟩

/-- Whatever is asked of an instance with a uniform send buffer, it writes its
own conversation id. -/
theorem run {k k' : K} {bufs : List Bytes} (calls : Kcp.Run k bufs k') (uniform : c.Uniform k) :
    c.Uniform k' ∧ c.conv k' = c.conv k ∧ ∀ buf ∈ bufs, readConv buf = some (c.conv k) := by
  induction calls with
  | nil => exact ⟨uniform, rfl, by simp⟩
  | silent call _ ih =>
      obtain ⟨uniform', conv, output⟩ := ih (c.uniform_silent _ _ call uniform)
      rw [c.conv_silent _ _ call] at conv output
      exact ⟨uniform', conv, output⟩
  | update k now writer _ ih =>
      obtain ⟨uniform', conv, output⟩ := ih (c.uniform_update k now writer uniform)
      rw [c.conv_update] at conv output
      refine ⟨uniform', conv, ?_⟩
      intro buf mem
      rcases List.mem_append.mp mem with first | rest
      · exact c.update_output k now writer uniform buf first
      · exact output buf rest
  | flush k writer _ ih =>
      obtain ⟨uniform', conv, output⟩ := ih (c.uniform_flush k writer uniform)
      rw [c.conv_flush] at conv output
      refine ⟨uniform', conv, ?_⟩
      intro buf mem
      rcases List.mem_append.mp mem with first | rest
      · exact c.flush_output k writer uniform buf first
      · exact output buf rest

end ConvStamp

/-- The conversation id of a `kcp` instance: only `set_conv` changes it. -/
structure ConvField (K : Type) [Kcp K] where
  conv : K → UInt32
  new : ∀ c, conv (Kcp.new c) = c
  setConv : ∀ k c, conv (Kcp.setConv k c) = c
  silent : ∀ k k', Kcp.Silent k k' → conv k' = conv k
  update : ∀ k now writer, conv (Kcp.update k now writer).1 = conv k
  flush : ∀ k writer, conv (Kcp.flush k writer).1 = conv k

theorem ConvField.run {K : Type} [Kcp K] (c : ConvField K) {k k' : K} {bufs : List Bytes}
    (calls : Kcp.Run k bufs k') : c.conv k' = c.conv k := by
  induction calls with
  | nil => rfl
  | silent call _ ih => rw [ih, c.silent _ _ call]
  | update k now writer _ ih => rw [ih, c.update]
  | flush k writer _ ih => rw [ih, c.flush]

/-- A session starts with an instance of its own conversation id. -/
theorem ConvField.applyTo {K : Type} [Kcp K] (c : ConvField K) (config : KcpConfig)
    (conv : UInt32) : c.conv (config.applyTo (Kcp.new conv)) = conv := by
  have calls := config.applyTo_quiets (Kcp.new conv : K)
  exact (c.run (.of_silents calls.silents)).trans (c.new conv)

def ConvStamp.field {K : Type} [Kcp K] (c : ConvStamp K) : ConvField K where
  conv := c.conv
  new := c.conv_new
  setConv := c.conv_setConv
  silent := c.conv_silent
  update := c.conv_update
  flush := c.conv_flush

/-- The header check of `input` in the `kcp` crate: what is shorter than a segment header or
begins with another conversation id is refused, and leaves the instance as it is. -/
structure HeaderCheck (K : Type) [Kcp K] where
  conv : K → UInt32
  refuses : ∀ k data, data.length < 24 ∨ readConv data ≠ some (conv k) →
    ∃ e, Kcp.input k data = (k, .error e)

/-- The receive queue of the `kcp` crate: `recv` with a buffer of the size that
`peeksize` has just returned succeeds and takes out the message at the front. -/
structure RecvQueue (K : Type) [Kcp K] : Prop where
  front : ∀ (k : K) (size : Nat), Kcp.peeksize k = .ok size →
    ∃ (k' : K) (msg : Bytes), Kcp.recv k size = (k', .ok msg) ∧
      Kcp.rcvQueue k = msg :: Kcp.rcvQueue k'

end KcpPeer
