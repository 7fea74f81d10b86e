/-
What a step of an exchange can do, and what a run of steps keeps.

A step that fails answers with its error and the endpoint goes on from the state
it had. For a step that writes this takes more than keeping the old state: its
writer was given the buffer, and what the writer left there is dropped with the
failure. Nothing is lost by that, because no writer of the library fails with
anything left in the buffer (`dropped_eq`).

A step that succeeds touches one part of the state. There are more than thirty
steps and nine things they do, so `Kind` names these, `Moves` says for each what
the new state is, and `moves_of_ok` is the only lemma that looks into `step`.
What a run keeps follows by cases on the kind and one induction on the steps.

The last section puts this to use. A server keeps no state for a client, and
what it needs when the client comes back is the secret it had. So whatever an
endpoint was told to do in between, and however much of it failed, a cookie that
was computed before passes after, unless the secret was renewed.
-/
import DatagramHello.Exchange.Step
import DatagramHello.Proofs.Cookie.Accepted
import DatagramHello.Proofs.Handshake.Atomic

set_option autoImplicit false

namespace DatagramHello.Exchange

variable {s s' : Exchange} {t : Step} {ts : List Step} {r : Reply} {w : Writer} {e : Error}

/-! ## Steps that write

Six kinds of things are written into the endpoint's buffer. Each has a writer of
its own, and that it fails without a trace is known of every one of them. -/

/-- The writer that a step runs on the endpoint's buffer, if it runs one. -/
def writer? (s : Exchange) : Step → Option Writer
  | .writeExtensions => some s.extensions.write
  | .writeHello => some s.hello.write
  | .writeBoundPart => some (Writer.put s.hello.boundPart)
  | .sendHello seq => some (Handshake.write ⟨seq, .clientHello s.hello⟩)
  | .sendAnswer seq => some (Handshake.write ⟨seq, .helloVerify s.answer⟩)
  | .append bytes => some (Writer.put bytes)
  | _ => none

/-- A step that writes is its writer, run on the endpoint's buffer. -/
theorem step_of_writer (h : s.writer? t = some w) : s.step t = s.writing w := by
  cases t with
  | writeExtensions | writeHello | writeBoundPart | sendHello | sendAnswer | append =>
    cases h
    rfl
  | _ => contradiction

/-- No step runs a writer that could fail half way and leave something behind. -/
theorem atomic_of_writer (h : s.writer? t = some w) : w.Atomic := by
  cases t with
  | writeExtensions =>
    cases h
    exact s.extensions.atomic_write
  | writeHello =>
    cases h
    exact s.hello.atomic_write
  | sendHello | sendAnswer =>
    cases h
    exact Handshake.atomic_write _
  | writeBoundPart | append =>
    cases h
    exact (Writer.appends_put _).atomic
  | _ => contradiction

/-- Running an atomic writer fails and changes nothing, or adds octets to the buffer. -/
theorem writing_eq (hw : w.Atomic) (s : Exchange) :
    (∃ e, w s.out = ⟨s.out, .error e⟩ ∧ s.writing w = ⟨[], .error e⟩)
      ∨ ∃ bs, w s.out = ⟨s.out.append bs, .ok ()⟩
          ∧ s.writing w = succeed { s with out := s.out.append bs } := by
  rcases hw s.out with ⟨e, hrun⟩ | ⟨bs, hrun⟩
  · refine .inl ⟨e, hrun, ?_⟩
    rw [writing, hrun]
  · refine .inr ⟨bs, hrun, ?_⟩
    rw [writing, hrun]

/-- **Dropping a failed writer's buffer loses nothing.** When a step that writes fails, its writer
left the buffer that the endpoint keeps, and failed with the error that the step answers. -/
theorem dropped_eq (h : s.writer? t = some w) (herror : (s.step t).value = .error e) :
    w s.out = ⟨s.out, .error e⟩ := by
  rw [step_of_writer h] at herror
  rcases writing_eq (atomic_of_writer h) s with ⟨e', hrun, hwriting⟩ | ⟨bs, -, hwriting⟩
  · rw [hwriting] at herror
    cases herror
    exact hrun
  · rw [hwriting] at herror
    contradiction

/-! ## One step

Whatever a step that succeeds does to the state is one of nine things. -/

/-- What a step is about. -/
inductive Step.Kind where
  | config
  | generator
  | hello
  | answer
  | extensions
  /-- The hello or the answer, whichever a message has brought. -/
  | message
  /-- The buffer gets longer. -/
  | write
  /-- The buffer is cut or changed. -/
  | edit
  /-- Nothing changes. -/
  | look
deriving DecidableEq

/-- The kind of each step. -/
def Step.kind : Step → Kind
  | .configure _ => .config
  | .renewSecret _ => .generator
  | .setHello _ | .offerSuite _ | .offerMethod _ | .clearSuites | .clearMethods | .setVersion _
  | .setRandom _ | .setSessionId _ | .setCookie _ | .flipRandom .. | .echo | .attach => .hello
  | .setAnswer _ | .challenge _ => .answer
  | .pushExtension _ | .clearExtensions | .detach | .receiveExtensions => .extensions
  | .receive => .message
  | .writeExtensions | .writeHello | .writeBoundPart | .sendHello _ | .sendAnswer _
  | .append _ => .write
  | .clear | .truncate _ | .overwrite .. => .edit
  | .findExtension _ | .countExtensions | .inspect | .compute _ | .verify _ => .look

/-- What the state may become by a step of a kind: one part of it is another, and the rest is as it
was. -/
def Step.Kind.Moves (s s' : Exchange) : Kind → Prop
  | .config => ∃ config, s' = { s with config }
  | .generator => ∃ secret, s' = { s with generator := { secret, config := s.config } }
  | .hello => ∃ hello, s' = { s with hello }
  | .answer => ∃ answer, s' = { s with answer }
  | .extensions => ∃ extensions, s' = { s with extensions }
  | .message => (∃ hello, s' = { s with hello }) ∨ ∃ answer, s' = { s with answer }
  | .write => ∃ bs, s' = { s with out := s.out.append bs }
  | .edit => ∃ out, s' = { s with out }
  | .look => s' = s

/-- Computing a cookie never fails and changes nothing. -/
theorem step_compute (s : Exchange) (peer : Peer) :
    s.step (.compute peer) = ⟨[], .ok (s, .cookie (s.generator.cookie peer s.hello))⟩ := by
  rw [step, Generator.compute_eq]
  rfl

/-- Offering a suite never fails. Where the list has no more room the hello is left as it is, and
the answer says so. -/
theorem exists_offered_suite (s : Exchange) (suite : CipherSuite) :
    ∃ hello yes, s.step (.offerSuite suite) = succeed { s with hello } (.accepted yes) := by
  simp only [step]
  split
  · exact ⟨_, true, rfl⟩
  · exact ⟨s.hello, false, rfl⟩

/-- The same for a compression method. -/
theorem exists_offered_method (s : Exchange) (method : CompressionMethod) :
    ∃ hello yes, s.step (.offerMethod method) = succeed { s with hello } (.accepted yes) := by
  simp only [step]
  split
  · exact ⟨_, true, rfl⟩
  · exact ⟨s.hello, false, rfl⟩

/-- A writer that succeeds leaves the state with a longer buffer. -/
theorem moves_of_writing (hw : w.Atomic) (h : (s.writing w).value = .ok (s', r)) :
    Step.Kind.write.Moves s s' := by
  rcases writing_eq hw s with ⟨e, -, hwriting⟩ | ⟨bs, -, hwriting⟩
  · rw [hwriting] at h
    contradiction
  · rw [hwriting] at h
    cases h
    exact ⟨bs, rfl⟩

/-- **What one step can do.** A step that succeeds leaves the state as its kind says. -/
theorem moves_of_ok (h : (s.step t).value = .ok (s', r)) : t.kind.Moves s s' := by
  by_cases hwriter : ∃ w, s.writer? t = some w
  · obtain ⟨w, hw⟩ := hwriter
    rw [step_of_writer hw] at h
    have hmoves := moves_of_writing (atomic_of_writer hw) h
    cases t with
    | writeExtensions | writeHello | writeBoundPart | sendHello | sendAnswer | append =>
      exact hmoves
    | _ => contradiction
  · cases t with
    | writeExtensions | writeHello | writeBoundPart | sendHello | sendAnswer | append =>
      exact absurd ⟨_, rfl⟩ hwriter
    | configure settings =>
      have hbuilt : settings.build.map (fun config => ({ s with config }, Reply.config config))
          = .ok (s', r) := h
      obtain ⟨config, -, hnext⟩ := Logged.map_eq_ok_iff.mp hbuilt
      cases hnext
      exact ⟨config, rfl⟩
    | pushExtension source =>
      have hpushed : (s.extensions.push source).map
          (fun extensions => ({ s with extensions }, Reply.count extensions.count))
          = .ok (s', r) := h
      obtain ⟨extensions, -, hnext⟩ := Logged.map_eq_ok_iff.mp hpushed
      cases hnext
      exact ⟨extensions, rfl⟩
    | compute peer =>
      rw [step_compute] at h
      cases h
      rfl
    | receiveExtensions =>
      obtain ⟨extensions, -, hnext⟩ := Logged.value_map_eq_ok_iff.mp h
      cases hnext
      exact ⟨extensions, rfl⟩
    | challenge peer =>
      obtain ⟨answer, -, hnext⟩ := Logged.value_map_eq_ok_iff.mp h
      cases hnext
      exact ⟨answer, rfl⟩
    | receive =>
      obtain ⟨⟨seq, hello | answer⟩, -, hnext⟩ := Logged.value_map_eq_ok_iff.mp h
      · cases hnext
        exact .inl ⟨hello, rfl⟩
      · cases hnext
        exact .inr ⟨answer, rfl⟩
    | offerSuite suite =>
      obtain ⟨hello, yes, hstep⟩ := exists_offered_suite s suite
      rw [hstep] at h
      cases h
      exact ⟨hello, rfl⟩
    | offerMethod method =>
      obtain ⟨hello, yes, hstep⟩ := exists_offered_method s method
      rw [hstep] at h
      cases h
      exact ⟨hello, rfl⟩
    -- the others cannot fail, and set one part of the state or none
    | findExtension | countExtensions | inspect | verify =>
      cases h
      rfl
    | _ =>
      cases h
      exact ⟨_, rfl⟩

/-- A step that succeeds leaves what it answers with. -/
theorem after_of_ok (h : (s.step t).value = .ok (s', r)) : s.after t = s' := by
  rw [after, h]

/-- A step that fails leaves the state as it was. -/
theorem after_of_error (h : (s.step t).value = .error e) : s.after t = s := by
  rw [after, h]

/-- A step fails and leaves the state as it was, or it does what its kind says. -/
theorem after_eq_or_moves (s : Exchange) (t : Step) :
    s.after t = s ∨ t.kind.Moves s (s.after t) := by
  rcases hstep : (s.step t).value with e | ⟨s', r⟩
  · exact .inl (after_of_error hstep)
  · rw [after_of_ok hstep]
    exact .inr (moves_of_ok hstep)

/-! ## What is left alone

The parts of the state that a kind does not name are as they were. The three below are what an
endpoint is asked about: which configuration and which secret it works with, and what it has
written. -/

namespace Step.Kind.Moves

variable {k : Kind}

/-- Only configuring changes the configuration that decoding goes by, and only a new secret changes
the generator. In particular the generator keeps the configuration that it was made with when the
endpoint gets another one. -/
theorem settings_eq (h : k.Moves s s') :
    (k ≠ .config → s'.config = s.config) ∧ (k ≠ .generator → s'.generator = s.generator) := by
  cases k with
  | config =>
    obtain ⟨_, rfl⟩ := h
    exact ⟨fun hk => absurd rfl hk, fun _ => rfl⟩
  | generator =>
    obtain ⟨_, rfl⟩ := h
    exact ⟨fun _ => rfl, fun hk => absurd rfl hk⟩
  | look =>
    rw [h]
    exact ⟨fun _ => rfl, fun _ => rfl⟩
  | message =>
    rcases h with ⟨_, rfl⟩ | ⟨_, rfl⟩
    · exact ⟨fun _ => rfl, fun _ => rfl⟩
    · exact ⟨fun _ => rfl, fun _ => rfl⟩
  | _ =>
    obtain ⟨_, rfl⟩ := h
    exact ⟨fun _ => rfl, fun _ => rfl⟩

/-- The buffer is cut or changed by the steps that are for this, and by no other. -/
theorem out_eq (h : k.Moves s s') (hk : k ≠ .edit) : ∃ bs, s'.out = s.out.append bs := by
  cases k with
  | edit => contradiction
  | write =>
    obtain ⟨bs, rfl⟩ := h
    exact ⟨bs, rfl⟩
  | look =>
    rw [h]
    exact ⟨[], s.out.append_nil.symm⟩
  | message =>
    rcases h with ⟨_, rfl⟩ | ⟨_, rfl⟩
    · exact ⟨[], s.out.append_nil.symm⟩
    · exact ⟨[], s.out.append_nil.symm⟩
  | _ =>
    obtain ⟨_, rfl⟩ := h
    exact ⟨[], s.out.append_nil.symm⟩

end Step.Kind.Moves

/-- A step that does not configure keeps the configuration, whether it succeeds or not. -/
theorem config_after (s : Exchange) (h : t.kind ≠ .config) : (s.after t).config = s.config := by
  rcases after_eq_or_moves s t with hsame | hmoves
  · rw [hsame]
  · exact hmoves.settings_eq.1 h

/-- A step that does not renew the secret keeps the generator, whether it succeeds or not. -/
theorem generator_after (s : Exchange) (h : t.kind ≠ .generator) :
    (s.after t).generator = s.generator := by
  rcases after_eq_or_moves s t with hsame | hmoves
  · rw [hsame]
  · exact hmoves.settings_eq.2 h

/-- A step that does not edit the buffer adds to it at most, whether it succeeds or not. -/
theorem out_after (s : Exchange) (h : t.kind ≠ .edit) :
    ∃ bs, (s.after t).out = s.out.append bs := by
  rcases after_eq_or_moves s t with hsame | hmoves
  · rw [hsame]
    exact ⟨[], s.out.append_nil.symm⟩
  · exact hmoves.out_eq h

/-! ## Runs

A run goes on behind a failure. It comes to the same state as the run of those of its steps that
succeed, and what every step of it preserves it preserves. -/

/-- A run takes its first step and goes on from there, whatever became of it. -/
theorem run_cons (s : Exchange) (t : Step) (ts : List Step) :
    s.run (t :: ts) = (s.after t).run ts := rfl

/-- What every step of a run preserves, the run preserves. -/
theorem run_induction {P : Exchange → Prop} (hstep : ∀ t ∈ ts, ∀ s, P s → P (s.after t))
    (hs : P s) : P (s.run ts) := by
  -- on the steps, with the state before the first of them
  induction ts generalizing s with
  | nil => exact hs
  | cons t ts ih =>
    have hfirst : P (s.after t) := hstep t List.mem_cons_self s hs
    have hrest : ∀ u ∈ ts, ∀ s, P s → P (s.after u) := by
      intro u hu
      exact hstep u (List.mem_cons_of_mem t hu)
    exact ih hrest hfirst

/-- A part of the state that no step of a run changes is what it was before the run. -/
theorem part_run {α : Type} {part : Exchange → α} (s : Exchange)
    (h : ∀ t ∈ ts, ∀ s, part (s.after t) = part s) : part (s.run ts) = part s := by
  refine run_induction (P := fun s' => part s' = part s) ?_ rfl
  intro t ht s' hs'
  rw [h t ht s', hs']

/-- An endpoint decodes by the configuration it had unless it was configured. -/
theorem config_run (s : Exchange) (h : ∀ t ∈ ts, t.kind ≠ .config) :
    (s.run ts).config = s.config :=
  part_run s fun t ht s => config_after s (h t ht)

/-- A run without a new secret keeps the generator. -/
theorem generator_run (s : Exchange) (h : ∀ t ∈ ts, t.kind ≠ .generator) :
    (s.run ts).generator = s.generator :=
  part_run s fun t ht s => generator_after s (h t ht)

/-- What an endpoint has written stays where it is as long as nobody edits the buffer. -/
theorem out_run (s : Exchange) (h : ∀ t ∈ ts, t.kind ≠ .edit) :
    ∃ bs, (s.run ts).out = s.out.append bs := by
  refine run_induction (P := fun s' => ∃ bs, s'.out = s.out.append bs) ?_ ?_
  · intro t ht s' hs'
    obtain ⟨bs, hbs⟩ := hs'
    obtain ⟨more, hmore⟩ := out_after s' (h t ht)
    refine ⟨bs ++ more, ?_⟩
    rw [hmore, hbs, Buffer.append_append]
  · exact ⟨[], s.out.append_nil.symm⟩

/-- The steps of a run that succeed, each from the state that the run has reached there. -/
def performed : Exchange → List Step → List Step
  | _, [] => []
  | s, t :: ts =>
    match (s.step t).value with
    | .ok (s', _) => t :: performed s' ts
    | .error _ => performed s ts

/-- A step that succeeds is performed. -/
theorem performed_cons_of_ok (h : (s.step t).value = .ok (s', r)) :
    s.performed (t :: ts) = t :: s'.performed ts := by
  rw [performed, h]

/-- A step that fails is not. -/
theorem performed_cons_of_error (h : (s.step t).value = .error e) :
    s.performed (t :: ts) = s.performed ts := by
  rw [performed, h]

/-- **Failures leave no trace.** A run comes to the state to which its steps that succeed come
without the others, and without the others they all succeed. -/
theorem run_performed (s : Exchange) (ts : List Step) :
    s.run (s.performed ts) = s.run ts ∧ s.performed (s.performed ts) = s.performed ts := by
  induction ts generalizing s with
  | nil => exact ⟨rfl, rfl⟩
  | cons t ts ih =>
    rcases hstep : (s.step t).value with e | ⟨s', r⟩
    -- a step that fails is left out, and the state it leaves is the one it found
    · obtain ⟨hrun, hperformed⟩ := ih s
      rw [performed_cons_of_error hstep, run_cons, after_of_error hstep]
      exact ⟨hrun, hperformed⟩
    · obtain ⟨hrun, hperformed⟩ := ih s'
      rw [performed_cons_of_ok hstep, run_cons, run_cons, after_of_ok hstep,
        performed_cons_of_ok hstep, hperformed]
      exact ⟨hrun, rfl⟩

/-! ## Events

A step that decodes, and one that uses the generator, may leave events whether it succeeds or not.
Every other step is silent. -/

/-- The step reads what was received, or makes or checks a cookie that is to be sent. -/
def Step.isHeard : Step → Bool
  | .receive | .receiveExtensions | .verify _ | .challenge _ => true
  | _ => false

/-- **Silence.** No other step leaves an event, in success or in failure. -/
theorem log_step_of_not_isHeard (h : t.isHeard = false) : (s.step t).log = [] := by
  by_cases hwriter : ∃ w, s.writer? t = some w
  · obtain ⟨w, hw⟩ := hwriter
    rw [step_of_writer hw]
    rcases writing_eq (atomic_of_writer hw) s with ⟨e, -, hwriting⟩ | ⟨bs, -, hwriting⟩
    · rw [hwriting]
    · rw [hwriting]
      rfl
  · cases t with
    | writeExtensions | writeHello | writeBoundPart | sendHello | sendAnswer | append =>
      exact absurd ⟨_, rfl⟩ hwriter
    | receive | receiveExtensions | verify | challenge => contradiction
    | offerSuite suite =>
      obtain ⟨hello, yes, hstep⟩ := exists_offered_suite s suite
      rw [hstep]
      rfl
    | offerMethod method =>
      obtain ⟨hello, yes, hstep⟩ := exists_offered_method s method
      rw [hstep]
      rfl
    | _ => rfl

/-! ## A cookie across a run

The frames of a run are put to use: what checking a cookie needs of the endpoint is the generator it
was computed with, and that is left alone. -/

/-- **A cookie outlives whatever an endpoint is told to do.** A cookie that the endpoint computed
for a peer and a hello passes after any run of steps, failures included, that does not renew the
secret: when the hello at hand has the fields that a cookie is bound to and this cookie, checking it
answers yes, leaves no event and changes nothing. Another configuration does not matter, since the
generator keeps its own. -/
theorem cookie_passes_after_run {peer : Peer} {c : Cookie}
    (hissued : (s.step (.compute peer)).value = .ok (s, .cookie c))
    (hkept : ∀ t ∈ ts, t.kind ≠ .generator)
    (hbound : s.hello.SameBound (s.run ts).hello) (hcookie : (s.run ts).hello.cookie = c) :
    (s.run ts).step (.verify peer) = ⟨[], .ok (s.run ts, .verdict true)⟩ := by
  have hgenerator : (s.run ts).generator = s.generator := generator_run s hkept
  have hc : s.generator.cookie peer s.hello = c := by
    rw [step_compute] at hissued
    cases hissued
    rfl
  have hpasses : ((s.run ts).generator.verify peer (s.run ts).hello).value = true := by
    rw [hgenerator, Generator.value_verify_iff_of_sameBound hbound, hcookie, hc]
  have hquiet := Generator.log_verify_of_passes hpasses
  simp only [step, Logged.map, hpasses, hquiet]

end DatagramHello.Exchange
