/-
What a generator computes and what it lets pass.

A configuration keeps the length of a cookie between 1 and 32, so cutting one
from a tag never fails, the cut is never empty, and the one cookie that passes
for a peer and a hello is the one that is computed for them. The hello's own
cookie has no part in this: it is not in what the tag is computed over.

What is left of a question about cookies is then a question about that input.
A cookie issued for one peer and hello passes for another pair, whatever the
code, the secret and the length, exactly when the two pairs have one input
(`passes_iff_macInput_eq`).
-/
import DatagramHello.Cookie.SelfCheck

set_option autoImplicit false

namespace DatagramHello.Generator

variable {g : Generator} {peer peer' : Peer} {hello hello' : ClientHello}

/-- The cookie for a peer and a hello. -/
def cookie (g : Generator) (peer : Peer) (hello : ClientHello) : Cookie where
  bytes := (g.tag peer hello).bytes.take g.config.cookieLength
  length_bytes := by
    have hle := g.config.cookieLength_le
    rw [List.length_take, (g.tag peer hello).length_bytes]
    show min g.config.cookieLength 32 ≤ 255
    omega

/-- The cookie is as long as configured. -/
@[simp] theorem length_cookie : (g.cookie peer hello).length = g.config.cookieLength := by
  have hle := g.config.cookieLength_le
  rw [Token.length, cookie, List.length_take, (g.tag peer hello).length_bytes]
  omega

/-! ## Computing

The tag of the input, cut to the configured length. -/

/-- Computing a cookie never fails, since a configured length is never too long to be cut from a
tag. -/
theorem compute_eq (g : Generator) (peer : Peer) (hello : ClientHello) :
    g.compute peer hello = .ok (g.cookie peer hello) :=
  dif_pos (g.cookie peer hello).length_bytes

/-- A challenge has the configured version and the cookie for the peer and the hello. -/
theorem value_challenge (g : Generator) (peer : Peer) (hello : ClientHello) :
    (g.challenge peer hello).value
      = .ok ⟨g.config.serverVersion, g.cookie peer hello⟩ := by
  rw [challenge, compute_eq]

/-- The input is made of address, port and bound part, and of nothing else. -/
theorem macInput_congr (hoctets : peer.octets = peer'.octets)
    (hport : peer.udpPort = peer'.udpPort) (hbound : hello.boundPart = hello'.boundPart) :
    macInput peer hello = macInput peer' hello' := by
  rw [macInput, hoctets, hport, hbound, macInput]

/-- The cookie is a matter of the input alone. -/
theorem cookie_congr (h : macInput peer hello = macInput peer' hello') :
    g.cookie peer hello = g.cookie peer' hello' := by
  unfold cookie tag
  simp only [h]

/-! ## Checking

The hello's cookie is compared in two steps, its length first and then its octets with the front of
the tag. Both together ask whether it is the computed one. -/

/-- A front part that is long enough to count matches exactly if it is the front. -/
theorem matchesFront_iff {code : Octets 32} {front : Bytes} (hpos : 0 < front.length)
    (hle : front.length ≤ 32) :
    matchesFront code front = true ↔ front = code.bytes.take front.length := by
  simp only [matchesFront, hpos, hle, decide_true, Bool.true_and, beq_iff_eq]
  exact eq_comm

/-- **The cookie that passes** is the one that is computed, and no other. -/
theorem value_verify_iff :
    (g.verify peer hello).value = true ↔ hello.cookie = g.cookie peer hello := by
  unfold verify
  by_cases hlength : hello.cookie.length = g.config.cookieLength
  · have hpos : 0 < hello.cookie.bytes.length := by
      rw [← Token.length, hlength]
      exact g.config.cookieLength_pos
    have hle : hello.cookie.bytes.length ≤ 32 := by
      rw [← Token.length, hlength]
      exact g.config.cookieLength_le
    -- the lengths agree, so comparing the fronts is comparing the cookies
    have hfront : matchesFront (g.tag peer hello) hello.cookie.bytes = true
        ↔ hello.cookie = g.cookie peer hello := by
      rw [matchesFront_iff hpos hle, ← Token.length, hlength, Token.mk.injEq]
      rfl
    rw [if_neg (not_not_intro hlength), ← hfront]
    by_cases hmatch : matchesFront (g.tag peer hello) hello.cookie.bytes
    · simp [hmatch]
    · simp [hmatch]
  · -- a cookie of another length is not compared at all
    have hother : hello.cookie ≠ g.cookie peer hello := by
      intro hsame
      rw [hsame, length_cookie] at hlength
      exact hlength rfl
    rw [if_pos hlength]
    by_cases hempty : hello.cookie.isEmpty
    · simp [hempty, hother]
    · simp [hempty, hother]

/-- A cookie that passes leaves no event. -/
theorem log_verify_of_passes (h : (g.verify peer hello).value = true) :
    (g.verify peer hello).log = [] := by
  unfold verify at h ⊢
  -- each of the three ways that leave an event refuses
  by_cases hlength : hello.cookie.length ≠ g.config.cookieLength
  · rw [if_pos hlength] at h
    by_cases hempty : hello.cookie.isEmpty
    · rw [if_pos hempty] at h
      contradiction
    · rw [if_neg hempty] at h
      contradiction
  · rw [if_neg hlength] at h ⊢
    by_cases hmatch : matchesFront (g.tag peer hello) hello.cookie.bytes
    · rw [if_pos hmatch]
    · rw [if_neg hmatch] at h
      contradiction

/-- A generator's answers about itself: computing gives a cookie of the configured length, gives it
twice, and the cookie passes. What is not known beforehand is only whether the hello's own cookie
passes, and its check is the only one that can leave an event. -/
theorem selfCheck_eq (g : Generator) (peer : Peer) (hello : ClientHello) :
    g.selfCheck peer hello
      = ⟨(g.verify peer hello).log, .ok {
          cookieLength := g.config.cookieLength
          config := g.config
          before := (g.verify peer hello).value
          stable := true
          after := true }⟩ := by
  have hafter : (g.verify peer (hello.withCookie (g.cookie peer hello))).value = true :=
    value_verify_iff.mpr rfl
  have hquiet := log_verify_of_passes hafter
  rw [selfCheck, compute_eq]
  simp only [hafter, hquiet, length_cookie, List.append_nil, Except.toOption, beq_self_eq_true]

/-! ## Passing elsewhere

A cookie that was computed for one pair of peer and hello passes for another if the two inputs have
one tag. For a given code this may happen by chance; that it happens for every code means that the
inputs are equal, since there is a code that singles out an input. -/

/-- A code that tells one input from all others. -/
def singlingOut (input : Bytes) : Mac := fun _ message =>
  if message = input then Octets.zero 32 else Octets.generate 32 fun _ => 1

/-- Under a code that singles out the input of one pair, the cookies of two pairs are the same only
if their inputs are. -/
theorem macInput_eq_of_singlingOut
    (h : cookie ⟨singlingOut (macInput peer hello), Octets.zero 32, default⟩ peer hello
      = cookie ⟨singlingOut (macInput peer hello), Octets.zero 32, default⟩ peer' hello') :
    macInput peer hello = macInput peer' hello' := by
  by_cases hsame : macInput peer' hello' = macInput peer hello
  · exact hsame.symm
  -- the code gives zeros to the one input and ones to the other
  · have hbytes := congrArg Token.bytes h
    simp only [cookie, tag, singlingOut, if_neg hsame] at hbytes
    -- 32 zeros are not 32 ones
    exact absurd hbytes (by decide)

/-- Only what is one input of the code gets one cookie under every generator. -/
theorem forall_cookie_eq_iff :
    (∀ g : Generator, g.cookie peer hello = g.cookie peer' hello')
      ↔ macInput peer hello = macInput peer' hello' := by
  constructor
  · intro hsame
    exact macInput_eq_of_singlingOut (hsame _)
  · intro heq g
    exact cookie_congr heq

/-- A hello's own cookie is not in the input. -/
@[simp] theorem cookie_withCookie (c : Cookie) :
    g.cookie peer (hello.withCookie c) = g.cookie peer hello := rfl

/-- **What a cookie is bound to.** A cookie issued to one peer for one hello passes for another peer
with another hello under every generator exactly when the two are one input of the code. -/
theorem passes_iff_macInput_eq (peer peer' : Peer) (hello hello' : ClientHello) :
    (∀ g : Generator, ∃ c, g.compute peer hello = .ok c
        ∧ (g.verify peer' (hello'.withCookie c)).value = true)
      ↔ macInput peer hello = macInput peer' hello' := by
  rw [← forall_cookie_eq_iff]
  constructor
  · intro h g
    obtain ⟨c, hissued, hpasses⟩ := h g
    rw [compute_eq, Except.ok.injEq] at hissued
    subst hissued
    rw [value_verify_iff, cookie_withCookie] at hpasses
    exact hpasses
  · intro hsame g
    refine ⟨g.cookie peer hello, compute_eq g peer hello, ?_⟩
    rw [value_verify_iff, cookie_withCookie]
    exact hsame g

end DatagramHello.Generator
