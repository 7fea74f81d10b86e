/-
What a writer appends.

`w.Appends bs` says that `w` succeeds on every buffer and adds exactly `bs` at
its end, so what it writes depends neither on what the buffer holds nor on how
much. Writers built from writers that append do so too, and cutting the buffer
back after a failure changes nothing for them.
-/
import DatagramHello.Wire.Writer

set_option autoImplicit false

namespace DatagramHello

namespace Writer

variable {w next : Writer} {bs bs' : Bytes}

/-- `w` succeeds on every buffer and adds exactly `bs` at its end. -/
def Appends (w : Writer) (bs : Bytes) : Prop :=
  ∀ out, w out = ⟨out.append bs, .ok ()⟩

/-- Putting octets appends them. -/
theorem appends_put (bs : Bytes) : (put bs).Appends bs := fun _ => rfl

/-- Doing nothing appends nothing. -/
theorem appends_skip : skip.Appends [] := fun _ => rfl

/-- One writer after another appends what they append, in their order. -/
theorem Appends.andThen (hw : w.Appends bs) (hnext : next.Appends bs') :
    (w.andThen next).Appends (bs ++ bs') := by
  intro out
  rw [Writer.andThen, hw out]
  -- the second writer starts from what the first one left
  show next (out.append bs) = _
  rw [hnext, Buffer.append_append]

/-- A writer that does not fail has nothing to be cut back. -/
theorem Appends.restoring (hw : w.Appends bs) : w.restoring.Appends bs := by
  intro out
  rw [Writer.restoring, hw out]

/-! ## Writers that may fail

`Extends` is what holds of a writer in the middle of its work, when a part of the message may
already stand in the buffer, and `Atomic` is what its caller is promised. The cut that `restoring`
makes leads from the first to the second. -/

/-- Whatever its verdict, `w` leaves the buffer with nothing changed but its end. -/
def Extends (w : Writer) : Prop :=
  ∀ out, ∃ bs, (w out).buffer = out.append bs

/-- `w` fails and leaves the buffer as it was, or succeeds and adds something at its end. -/
def Atomic (w : Writer) : Prop :=
  ∀ out, (∃ e, w out = ⟨out, .error e⟩) ∨ ∃ bs, w out = ⟨out.append bs, .ok ()⟩

/-- Whenever `w` succeeds, `front` stands behind what the buffer held, and behind that whatever else
was added. -/
def Leads (w : Writer) (front : Bytes) : Prop :=
  ∀ out, (w out).result = .ok () → ∃ bs, (w out).buffer = (out.append front).append bs

/-- Whenever `w` succeeds, it adds at least `n` octets. -/
def Grows (w : Writer) (n : Nat) : Prop :=
  ∀ out, (w out).result = .ok () → out.length + n ≤ (w out).buffer.length

/-- A writer that always succeeds leaves no half of its work behind. -/
theorem Appends.atomic (hw : w.Appends bs) : w.Atomic := by
  intro out
  exact .inr ⟨bs, hw out⟩

/-- A writer that is cut back when it fails has changed nothing but the end of the buffer. -/
theorem Atomic.extends (hw : w.Atomic) : w.Extends := by
  intro out
  rcases hw out with ⟨e, hrun⟩ | ⟨bs, hrun⟩
  · exact ⟨[], by rw [hrun, Buffer.append_nil]⟩
  · exact ⟨bs, by rw [hrun]⟩

/-- A check in front of the first octet fails without a trace. -/
theorem atomic_check {c : Prop} [Decidable c] {e : Error} (hw : ¬ c → w.Atomic) :
    (if c then fail e else w).Atomic := by
  by_cases hc : c
  · rw [if_pos hc]
    intro out
    exact .inl ⟨e, rfl⟩
  · rw [if_neg hc]
    exact hw hc

/-- A writer may fail in its second half and still have touched nothing but the end of the buffer.
-/
theorem Appends.extends_andThen (hw : w.Appends bs) (hnext : next.Extends) :
    (w.andThen next).Extends := by
  intro out
  obtain ⟨bs', hbs'⟩ := hnext (out.append bs)
  refine ⟨bs ++ bs', ?_⟩
  rw [Writer.andThen, hw out]
  show (next (out.append bs)).buffer = _
  rw [hbs', Buffer.append_append]

/-- What is cut back after a failure is all that was written, however far the writer came. -/
theorem Extends.atomic_restoring (hw : w.Extends) : w.restoring.Atomic := by
  intro out
  obtain ⟨bs, hbs⟩ := hw out
  rw [Writer.restoring]
  rcases hrun : w out with ⟨after, e | u⟩
  · rw [hrun] at hbs
    subst hbs
    exact .inl ⟨e, by simp only [Buffer.truncate_append]⟩
  · rw [hrun] at hbs
    subst hbs
    exact .inr ⟨bs, rfl⟩

/-- Cutting back after a failure does not change the verdict. -/
theorem result_restoring (out : Buffer) : (w.restoring out).result = (w out).result := by
  unfold restoring
  rcases w out with ⟨after, e | u⟩ <;> rfl

/-- The one of the two outcomes that a success is. -/
theorem Atomic.eq_of_ok {out : Buffer} (hw : w.Atomic) (hok : (w out).result = .ok ()) :
    ∃ bs, w out = ⟨out.append bs, .ok ()⟩ := by
  rcases hw out with ⟨e, hrun⟩ | hrun
  · rw [hrun] at hok
    contradiction
  · exact hrun

/-- The one of the two outcomes that a failure is: nothing is left in the buffer. -/
theorem Atomic.eq_of_error {out : Buffer} {e : Error} (hw : w.Atomic)
    (herror : (w out).result = .error e) : w out = ⟨out, .error e⟩ := by
  rcases hw out with ⟨e', hrun⟩ | ⟨bs, hrun⟩
  · rw [hrun] at herror ⊢
    simpa using herror
  · rw [hrun] at herror
    contradiction

/-! ## What a success adds

`Atomic` leaves open which octets a success adds, and would be true of a writer that adds none. What
comes first in each of the library's writers cannot be missing, and `Leads` names it. -/

/-- A writer that appends its octets leads with any front part of them. -/
theorem Appends.leads (hw : w.Appends (bs ++ bs')) : w.Leads bs := by
  intro out _
  refine ⟨bs', ?_⟩
  rw [hw out, Buffer.append_append]

/-- What is put down first stays first, whatever comes behind it. -/
theorem Appends.leads_andThen (hw : w.Appends bs) (hnext : next.Extends) :
    (w.andThen next).Leads bs := by
  intro out _
  obtain ⟨bs', hbs'⟩ := hnext (out.append bs)
  refine ⟨bs', ?_⟩
  rw [Writer.andThen, hw out]
  exact hbs'

/-- A check that fails is no success, so nothing has to lead. -/
theorem leads_check {c : Prop} [Decidable c] {e : Error} (hw : ¬ c → w.Leads bs) :
    (if c then fail e else w).Leads bs := by
  by_cases hc : c
  · rw [if_pos hc]
    intro out hok
    contradiction
  · rw [if_neg hc]
    exact hw hc

/-- What is written is cut back after a failure only. -/
theorem Leads.restoring (hw : w.Leads bs) : w.restoring.Leads bs := by
  intro out hok
  rw [result_restoring] at hok
  obtain ⟨bs', hbs'⟩ := hw out hok
  refine ⟨bs', ?_⟩
  rw [Writer.restoring]
  rcases hrun : w out with ⟨after, e | u⟩
  · rw [hrun] at hok
    contradiction
  · rw [hrun] at hbs'
    exact hbs'

/-- The front is counted in octets. -/
theorem Leads.grows {n : Nat} (hw : w.Leads bs) (hn : n ≤ bs.length) : w.Grows n := by
  intro out hok
  obtain ⟨bs', hbs'⟩ := hw out hok
  have hlength : (w out).buffer.length = out.length + bs.length + bs'.length := by
    rw [hbs', Buffer.length_append, Buffer.length_append]
  omega

end Writer

end DatagramHello
