import KcpPeer.Session

set_option autoImplicit false

namespace KcpPeer

namespace Session

variable {K : Type} [Kcp K]

/-- `out` is KcpData that the session's instance wrote while the session became
`s'`; in `SynSent` the instance is not asked for output. -/
def Writes (s s' : Session K) (socket : Socket) (out : List Submission) : Prop :=
  ∃ bufs, Kcp.Run s.inner.kcp bufs s'.inner.kcp ∧ out = s.output socket bufs ∧
    (s.inner.state = .synSent → bufs = [] ∧ Kcp.Silents s.inner.kcp s'.inner.kcp)

theorem Writes.nothing {s s' : Session K} (socket : Socket)
    (calls : Kcp.Silents s.inner.kcp s'.inner.kcp) : Writes s s' socket [] :=
  ⟨[], .of_silents calls, rfl, fun _ => ⟨rfl, calls⟩⟩

theorem Writes.established {s s' : Session K} {socket : Socket} {bufs : List Bytes}
    (ready : s.inner.state = .established) (ran : Kcp.Run s.inner.kcp bufs s'.inner.kcp) :
    Writes s s' socket (s.output socket bufs) := by
  refine ⟨bufs, ran, rfl, ?_⟩
  intro waiting
  rw [waiting] at ready
  cases ready

theorem pump_writes (s : Session K) (now : UInt32) (socket : Socket)
    (ready : s.inner.state = .established) :
    Writes s (s.pump now socket).1 socket (s.pump now socket).2 :=
  .established ready ((Kcp.Run.of_update rfl).trans (Kcp.Run.of_flush rfl))

theorem queueData_writes (s : Session K) (data : Bytes) (now : UInt32) (socket : Socket) :
    Writes s (s.queueData data now socket).1 socket (s.queueData data now socket).2.1 := by
  unfold queueData
  dsimp only
  split
  · exact .nothing socket .refl
  · split
    · rename_i sent
      exact .nothing socket (.of_send sent)
    · rename_i sent
      split
      · exact .nothing socket (.of_send sent)
      · rename_i ready
        have queued := Kcp.Run.of_silents (.of_send sent)
        split
        · rename_i updated
          exact .established ready (queued.trans (.of_update updated))
        · rename_i updated
          split
          · rename_i flushed
            exact .established ready
              (queued.trans ((Kcp.Run.of_update updated).trans (.of_flush flushed)))
          · rename_i flushed
            exact .established ready
              (queued.trans ((Kcp.Run.of_update updated).trans (.of_flush flushed)))

theorem sendData_writes (s : Session K) (data : Bytes) (now : UInt32) (socket : Socket) :
    Writes s (s.sendData data now socket).1 socket (s.sendData data now socket).2.1 := by
  unfold sendData
  split
  · exact .nothing socket .refl
  · exact queueData_writes s data now socket

theorem update_writes (s : Session K) (now : UInt32) (socket : Socket) :
    Writes s (s.update now socket).1 socket (s.update now socket).2.1 := by
  unfold update
  dsimp only
  split
  · exact .nothing socket .refl
  · rename_i ready
    split
    · exact .nothing socket .refl
    · split
      · rename_i updated
        exact .established ready (.of_update updated)
      · rename_i updated
        split
        · exact .established ready (.of_update updated)
        · exact .established ready (.of_update updated)

theorem input_quiets (s : Session K) (data : Bytes) :
    Kcp.Quiets s.inner.kcp (s.input data).1.inner.kcp := by
  unfold input
  split
  · rename_i fed
    exact .of_input fed
  · rename_i fed
    exact .of_input fed

theorem drain_quiets (fuel : Nat) (kcp : K) (out : List Bytes) :
    Kcp.Quiets kcp (drain fuel kcp out).1 := by
  induction fuel generalizing kcp out with
  | zero => exact .refl
  | succ fuel ih =>
      unfold drain
      split
      · exact .refl
      · split
        · rename_i taken
          exact .of_recv taken
        · rename_i taken
          exact (Kcp.Quiets.of_recv taken).trans (ih _ _)

theorem tryRecvAll_quiets (s : Session K) :
    Kcp.Quiets s.inner.kcp s.tryRecvAll.1.inner.kcp := by
  have calls := drain_quiets (Kcp.rcvQueue s.inner.kcp).length s.inner.kcp []
  unfold tryRecvAll
  split
  · rename_i drained
    rw [drained] at calls
    exact calls
  · rename_i drained
    rw [drained] at calls
    exact calls

theorem retrySyn_kcp (s : Session K) (conv : UInt32) (config : KcpConfig)
    (nowEpoch now : UInt64) (socket : Socket) :
    (s.retrySyn conv config nowEpoch now socket).1.inner.kcp = s.inner.kcp := by
  unfold retrySyn
  repeat' split
  all_goals rfl

theorem maybeRetrySyn_kcp (s : Session K) (config : KcpConfig)
    (nowEpoch now : UInt64) (socket : Socket) :
    (s.maybeRetrySyn config nowEpoch now socket).1.inner.kcp = s.inner.kcp := by
  unfold maybeRetrySyn
  repeat' split
  · rfl
  · rfl
  · exact retrySyn_kcp ..

/-- A retry submits at most the SYN of a session that is still waiting. -/
theorem maybeRetrySyn_output (s : Session K) (config : KcpConfig)
    (nowEpoch now : UInt64) (socket : Socket) :
    (s.maybeRetrySyn config nowEpoch now socket).2.1 = [] ∨
      (s.inner.state = .synSent ∧ (s.maybeRetrySyn config nowEpoch now socket).2.1 =
        [s.synSubmission s.inner.convId socket]) := by
  unfold maybeRetrySyn retrySyn
  repeat' split
  · exact Or.inl rfl
  · exact Or.inl rfl
  · exact Or.inl rfl
  · exact Or.inl rfl
  · rename_i waiting _ _
    exact Or.inr ⟨waiting, rfl⟩

end Session

end KcpPeer
