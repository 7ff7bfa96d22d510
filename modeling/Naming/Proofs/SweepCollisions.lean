import Naming.Proofs.SweepSpares
import Naming.Proofs.UpdatesLossless

namespace Naming

variable {n : Nat}

/-- A client that destroys a context needs no gate, so it may be among quiet ones. -/
theorem Context.destroy_behaves (c : Context) {may : Allowance} (quiet inside makes : Bool)
    (hmay : c.key ≠ c.root → ∀ st s, may st s c.key) :
    c.destroy.Behaves may quiet inside makes := by
  unfold destroy
  split
  · exact Request.behaves_ofExcept _
  · rename_i hother
    have hremoval : (Active.during c.key .destroy .existing (do
        Active.look fun s => if s.isEmpty then .ok () else .error (.notEmpty c.key)
        Active.remove)).Behaves may quiet inside false :=
      fun _ _ hst _ _ => Active.removing_returns hst _ (hmay hother)
    refine hremoval.bind (fun _ => ?_) nofun
    exact Request.behaves_act (fun _ _ => .clearUnbound c.key) fun _ _ => rfl

/-- What a sweep has come to that was asked of the server `s`, when nothing was added since. -/
def Sweep.Told (root : ContextKey) (s : Server) (answer : Except Failure Answer) (st : Standing)
    (t : Server) : Prop :=
  ∃ b e result, answer = result.map .swept ∧ s.Shrinks b ∧ e.Onward True t ∧
    ComesTo root b e st.taken result

/-- What clients do that only sweep and destroy contexts. -/
theorem Task.quiet_assures {task : Task} (service : Service) (s : Server)
    (htask : task = .sweep ∨ ∃ key, task = .call key .destroy) :
    Job.Assures (task.allowance service)
      (fun answer st t => st.Away ∧ (task = .sweep → Sweep.Told service.root s answer st t))
      (task.request service) { quiet := true } s := by
  have hst : Standing.Ready { quiet := true } := ⟨rfl, rfl, rfl, nofun⟩
  rcases htask with rfl | ⟨key, rfl⟩
  · refine .bind (service.sweep_assures hst rfl rfl rfl) ?_
    rintro result _ t _ ⟨b, e, taken, rfl, hb, he, hcomes⟩
    have htold : ∀ u, t.Onward True u → Sweep.Told service.root s (result.map .swept)
        { quiet := true, closing := .after, taken := taken } u := fun u hu =>
      ⟨b, e, result, rfl, hb.calm rfl, (he.mono fun _ => rfl).trans hu, hcomes⟩
    cases result <;>
      exact fun u _ hu => ⟨⟨rfl, rfl, nofun⟩, fun _ => htold u (hu.mono fun _ => .inl rfl)⟩
  · have hdestroy : Request.Behaves (fun _ _ key => key ≠ service.root) true false false
        (service.context key).destroy :=
      (service.context key).destroy_behaves true false false fun hother _ _ => hother
    have hrequest := (hdestroy.map fun _ => Reply.finished).map Answer.reply
    exact (hrequest { quiet := true } s hst rfl nofun).mono fun _ _ _ _ hback =>
      ⟨hst.away hback rfl, nofun⟩

namespace Race

variable {service : Service} {tasks : Fin n → Task} {s : Server} {i : Fin n}
  {schedule : List (Fin n)} {race : Race n (Except Failure Answer)}

/-- Clients that only sweep and destroy contexts are quiet. -/
theorem kept_quiet (service : Service) (hs : s.AtRest) (hsound : s.Sound)
    (htasks : ∀ j, tasks j = .sweep ∨ ∃ key, tasks j = .call key .destroy) :
    (ofTasks service tasks s).Kept (fun j => (tasks j).allowance service)
      (fun j answer st t => st.Away ∧ (tasks j = .sweep → Sweep.Told service.root s answer st t))
      fun _ => { quiet := true } :=
  .begins true hs hsound fun j => Task.quiet_assures service s (htasks j)

/-- A sweep among clients that destroy contexts removes all garbage, or it fails because one of them
was there first. -/
theorem sweep_collides (hs : s.AtRest) (hsound : s.Sound) (hwilling : s.store.Willing)
    (hsweep : tasks i = .sweep) (hothers : ∀ j, j ≠ i → ∃ key, tasks j = .call key .destroy)
    (hp : (ofTasks service tasks s).play schedule = some race) :
    (∃ rest last, race.play rest = some last ∧ ∀ j, ∃ answer, last.jobs j = .done answer) ∧
      ∀ answer, race.jobs i = .done answer →
        (∃ removed, answer = .ok (.swept removed) ∧
          (∀ key, key ∈ removed ↔
            (ofTasks service tasks s).Took i (.remove key) (.ok true) schedule) ∧
          ∀ key, race.server.store.disk.contains key = true →
            s.store.disk.Reaches service.root key ∨ key ∈ s.memory.unbound) ∨
        ∃ key j, answer = .error (.noContext key) ∧
          ¬ race.server.store.disk.Reaches service.root key ∧ j ≠ i ∧
          (ofTasks service tasks s).Took j (.remove key) (.ok true) schedule := by
  have htasks : ∀ j, tasks j = .sweep ∨ ∃ key, tasks j = .call key .destroy := by
    intro j
    by_cases hj : j = i
    · exact .inl (hj ▸ hsweep)
    · exact .inr (hothers j hj)
  obtain ⟨crowd, hkept, hcourse⟩ := (kept_quiet service hs hsound htasks).play hp
  have htaken : ∀ j key, key ∈ (crowd j).taken ↔
      (ofTasks service tasks s).Took j (.remove key) (.ok true) schedule := by
    intro j key
    rw [hcourse.taken]
    exact or_iff_right List.not_mem_nil
  refine ⟨hkept.finishes fun _ _ _ _ h => h.1, fun answer hdone => ?_⟩
  obtain ⟨b, e, result, rfl, hb, he, hcomes⟩ := (hkept.comes hdone).2 hsweep
  have hlast := he.calm trivial
  cases hcomes with
  | swept took left =>
    rename_i removed
    refine .inl ⟨removed, rfl, fun key => (took key).symm.trans (htaken i key), fun key hc => ?_⟩
    exact (left key (hlast.records key hc)).imp hb.reaches fun hm => hb.unbound hm
  | missed stored unreached absent other =>
    rename_i key
    obtain ⟨j, htook⟩ := took_of_gone hp (hb.records key stored) (hlast.absent absent)
    refine .inr ⟨key, j, rfl, mt hlast.reaches unreached, ?_, htook⟩
    rintro rfl
    exact other ((htaken j key).mpr htook)
  | refused failure unwilling =>
    have hstill : race.server.store.Willing := hcourse.fails.trans hwilling
    exact absurd (he.willing.mp hstill) unwilling

/-- Two contexts are made and unbound again, so that nothing leads to them any more. -/
def orphaned : List Task :=
  [.call ⟨"NC0"⟩ (.bindNewContext (.single ⟨.ofId "a", Eq.refl true⟩)),
    .call ⟨"NC0"⟩ (.bindNewContext (.single ⟨.ofId "b", Eq.refl true⟩)),
    .call ⟨"NC0"⟩ (.unbind (.single ⟨.ofId "a", Eq.refl true⟩)),
    .call ⟨"NC0"⟩ (.unbind (.single ⟨.ofId "b", Eq.refl true⟩))]

/-- One client sweeps and another destroys one of these contexts. -/
def colliding : Fin 2 → Task := ![.sweep, .call ⟨"NC1"⟩ .destroy]

/-- The context is destroyed before the sweep lists the keys. -/
theorem sweep_collides_unlisted : ∃ (service : Service) (s : Server) (history : History)
    (race : Race 2 (Except Failure Answer)),
    Service.firstRun orphaned = some (service, s, history) ∧
      (ofTasks service colliding s).play
        (List.replicate 5 0 ++ List.replicate 11 1 ++ List.replicate 21 0) = some race ∧
      race.jobs 0 = .done (.ok (.swept [⟨"NC2"⟩])) ∧
      (∀ key, key ∈ [⟨"NC2"⟩] ↔ (ofTasks service colliding s).Took 0 (.remove key) (.ok true)
        (List.replicate 5 0 ++ List.replicate 11 1 ++ List.replicate 21 0)) ∧
      ∀ key, race.server.store.disk.contains key = true →
        s.store.disk.Reaches service.root key ∨ key ∈ s.memory.unbound := by
  have hrun : (Service.firstRun orphaned).any (fun p =>
      ((ofTasks p.1 colliding p.2.1).play
        (List.replicate 5 0 ++ List.replicate 11 1 ++ List.replicate 21 0)).any fun race =>
          decide ((race.jobs 0).answer? = some (.ok (.swept [⟨"NC2"⟩])))) = true := by
    decide +kernel
  obtain ⟨⟨service, s, history⟩, hrun, hraced⟩ := (Option.any_eq_true _ _).mp hrun
  obtain ⟨race, hplay, hanswer⟩ := (Option.any_eq_true _ _).mp hraced
  have hdone := Job.answer?_some.mp (of_decide_eq_true hanswer)
  have hsettled := (Reached.firstRun hrun).settled
  have hothers : ∀ j, j ≠ 0 → ∃ key, colliding j = .call key .destroy :=
    Fin.forall_fin_two.mpr ⟨fun h => absurd rfl h, fun _ => ⟨⟨"NC1"⟩, rfl⟩⟩
  rcases (sweep_collides hsettled.rest hsettled.sound hsettled.faults rfl hothers hplay).2 _ hdone
    with ⟨removed, hanswer, htook, hleft⟩ | ⟨key, j, hfailed, _⟩
  · cases hanswer
    exact ⟨service, s, history, race, hrun, hplay, hdone, htook, hleft⟩
  · cases hfailed

/-- The context is destroyed after the sweep has listed the keys and before it gets to this one. The
sweep fails, and what it had yet to remove is left. Alone it would have removed both. -/
theorem sweep_collides_listed : ∃ (service : Service) (s : Server) (history : History)
    (race : Race 2 (Except Failure Answer)),
    Service.firstRun orphaned = some (service, s, history) ∧ s.store.Willing ∧
      (service.sweep.serve s).map (·.1) = some (.ok [⟨"NC1"⟩, ⟨"NC2"⟩]) ∧
      (ofTasks service colliding s).play
        (List.replicate 14 0 ++ List.replicate 11 1 ++ List.replicate 7 0) = some race ∧
      race.jobs 0 = .done (.error (.noContext ⟨"NC1"⟩)) ∧
      race.jobs 1 = .done (.ok (.reply .finished)) ∧
      race.server.store.disk.contains ⟨"NC2"⟩ = true := by
  have hrun : (Service.firstRun orphaned).any (fun p =>
      decide ((p.1.sweep.serve p.2.1).map (·.1) = some (.ok [⟨"NC1"⟩, ⟨"NC2"⟩])) &&
      ((ofTasks p.1 colliding p.2.1).play
        (List.replicate 14 0 ++ List.replicate 11 1 ++ List.replicate 7 0)).any fun race =>
          decide ((race.jobs 0).answer? = some (.error (.noContext ⟨"NC1"⟩)) ∧
            (race.jobs 1).answer? = some (.ok (.reply .finished)) ∧
            race.server.store.disk.contains ⟨"NC2"⟩ = true)) = true := by
    decide +kernel
  obtain ⟨⟨service, s, history⟩, hrun, hraced⟩ := (Option.any_eq_true _ _).mp hrun
  obtain ⟨halone, hraced⟩ := Bool.and_eq_true_iff.mp hraced
  obtain ⟨race, hplay, hlast⟩ := (Option.any_eq_true _ _).mp hraced
  obtain ⟨hfailed, hdestroyed, hleft⟩ := of_decide_eq_true hlast
  have hsettled := (Reached.firstRun hrun).settled
  exact ⟨service, s, history, race, hrun, hsettled.faults, of_decide_eq_true halone, hplay,
    Job.answer?_some.mp hfailed, Job.answer?_some.mp hdestroyed, hleft⟩

end Race

end Naming
