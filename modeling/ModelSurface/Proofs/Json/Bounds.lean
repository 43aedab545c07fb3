import ModelSurface.Proofs.Json.Building
import ModelSurface.Proofs.Results

/-!
# Documents that are read off texts

Whatever a text holds, the integers of its document fit 64 bits and the document is not nested too
deeply: brackets are counted where they open, so that all that is open at one time fits. So the
values of documents are proper.
-/

namespace ModelSurface.Json

/-! ### Tokens -/

namespace Number

/-- An integer fits 64 bits. -/
def Fits : Number → Prop
  | .int i => -9223372036854775808 ≤ i ∧ i ≤ 18446744073709551615
  | .float _ => True

end Number

namespace Token

def Fits : Token → Prop
  | .num n => Number.Fits n
  | _ => True

end Token

theorem fits_plainNumber? {negative : Bool} {digits : List Char} {n : Number}
    (h : plainNumber? negative digits = some n) : Number.Fits n := by
  have hfloat : ∀ x : Option Binary64, x.map Number.float = some n → Number.Fits n := by
    intro x hx
    obtain ⟨value, -, rfl⟩ := Option.map_eq_some_iff.mp hx
    trivial
  unfold plainNumber? at h
  dsimp only at h
  split at h
  · split at h
    · rename_i hrange
      obtain rfl := Option.some.inj h
      unfold Number.Fits
      omega
    · exact hfloat _ h
  · split at h
    · rename_i hrange
      obtain rfl := Option.some.inj h
      unfold Number.Fits
      omega
    · exact hfloat _ h

theorem NumberScan.fits_token (scan : NumberScan) : scan.token.Fits := by
  have hfloat : ∀ x : Option Binary64, (NumberScan.token.ofNumber? (x.map .float)).Fits := by
    intro x
    cases x <;> trivial
  cases scan with
  | whole negative digits =>
      change (NumberScan.token.ofNumber? (plainNumber? negative digits.reverse)).Fits
      cases hnumber : plainNumber? negative digits.reverse with
      | none => trivial
      | some n => exact fits_plainNumber? hnumber
  | fraction negative lead digits => exact hfloat _
  | power negative lead frac down digits => exact hfloat _
  | _ => trivial

namespace Scan

/-- A literal that is being read is no number. -/
def Plain : Scan → Prop
  | .word _ token => token.Fits
  | _ => True

theorem plain_start (c : Char) : (start c).1.Plain ∧ ∀ token ∈ (start c).2, token.Fits := by
  unfold start
  split
  · exact ⟨trivial, List.forall_mem_nil _⟩
  · split
    all_goals try exact ⟨trivial, by simp [Token.Fits]⟩
    split
    · exact ⟨trivial, List.forall_mem_nil _⟩
    · exact ⟨trivial, by simp [Token.Fits]⟩

theorem plain_closeUnit (read : List Char) (high value : Option ℕ) :
    (closeUnit read high value).1.Plain ∧
      ∀ token ∈ (closeUnit read high value).2, token.Fits := by
  have hfail : failStr.1.Plain ∧ ∀ token ∈ failStr.2, token.Fits :=
    ⟨trivial, by simp [failStr, Token.Fits]⟩
  unfold closeUnit
  split
  · exact hfail
  · split
    · exact ⟨trivial, List.forall_mem_nil _⟩
    · exact hfail
  · split
    · exact hfail
    · split <;> exact ⟨trivial, List.forall_mem_nil _⟩

theorem plain_step {scan : Scan} (h : scan.Plain) (c : Char) :
    (scan.step c).1.Plain ∧ ∀ token ∈ (scan.step c).2, token.Fits := by
  have hfail : failStr.1.Plain ∧ ∀ token ∈ failStr.2, token.Fits :=
    ⟨trivial, by simp [failStr, Token.Fits]⟩
  cases scan with
  | ready => exact plain_start c
  | word missing token =>
      cases missing with
      | nil => exact plain_start c
      | cons w missing =>
          unfold step
          dsimp only
          split
          · split
            · exact ⟨trivial, List.forall_mem_singleton.mpr h⟩
            · exact ⟨h, List.forall_mem_nil _⟩
          · exact ⟨trivial, by simp [Token.Fits]⟩
  | number digits =>
      have htoken := digits.fits_token
      obtain ⟨hscan, hout⟩ := plain_start c
      unfold step
      dsimp only
      split
      · exact ⟨trivial, List.forall_mem_nil _⟩
      · exact ⟨trivial, by simp [Token.Fits]⟩
      · split
        · rename_i n hn
          rw [hn] at htoken
          exact ⟨hscan, List.forall_mem_cons.mpr ⟨htoken, hout⟩⟩
        · exact ⟨trivial, List.forall_mem_singleton.mpr htoken⟩
  | string read =>
      unfold step
      dsimp only
      split
      · exact ⟨trivial, by simp [Token.Fits]⟩
      · split
        · exact ⟨trivial, List.forall_mem_nil _⟩
        · split
          · exact hfail
          · exact ⟨trivial, List.forall_mem_nil _⟩
  | escape read =>
      unfold step
      dsimp only
      split
      · exact ⟨trivial, List.forall_mem_nil _⟩
      · split
        · exact ⟨trivial, List.forall_mem_nil _⟩
        · exact hfail
  | unit read high octets value =>
      unfold step
      dsimp only
      split
      · exact ⟨trivial, List.forall_mem_nil _⟩
      · exact plain_closeUnit _ _ _
  | pair read high =>
      unfold step
      dsimp only
      split
      · exact ⟨trivial, List.forall_mem_nil _⟩
      · exact hfail
  | pairEscape read high =>
      unfold step
      dsimp only
      split
      · exact ⟨trivial, List.forall_mem_nil _⟩
      · exact hfail
  | halted => exact ⟨trivial, List.forall_mem_nil _⟩

theorem fits_run {scan : Scan} (h : scan.Plain) (text : List Char) :
    ∀ token ∈ scan.run text, token.Fits := by
  induction text generalizing scan with
  | nil =>
      cases scan with
      | number digits => exact List.forall_mem_singleton.mpr digits.fits_token
      | ready | halted => exact List.forall_mem_nil _
      | _ => exact List.forall_mem_singleton.mpr trivial
  | cons c rest ih =>
      obtain ⟨hscan, hout⟩ := plain_step h c
      rw [run]
      split
      · rename_i heq
        rw [heq] at hout
        exact hout
      · rename_i heq
        rw [heq] at hscan hout
        intro token htoken
        exact (List.mem_append.mp htoken).elim (hout token) (ih hscan token)

end Scan

/-! ### Documents -/

namespace Document

/-- Integers fit 64 bits, and at most so many arrays and objects stand inside each other. -/
inductive Fits : ℕ → Document → Prop
  | null (n : ℕ) : Fits n .null
  | bool (n : ℕ) (value : Bool) : Fits n (.bool value)
  | num (n : ℕ) {value : Number} (h : Number.Fits value) : Fits n (.num value)
  | str (n : ℕ) (value : String) : Fits n (.str value)
  | arr {n : ℕ} {items : List Document} (h : ∀ item ∈ items, Fits n item) (ending : Ending) :
    Fits (n + 1) (.arr items ending)
  | obj {n : ℕ} {members : List (String × Document)} (h : ∀ member ∈ members, Fits n member.2)
    (ending : Ending) : Fits (n + 1) (.obj members ending)
  | broken (n : ℕ) (fault : Fault) : Fits n (.broken fault)

end Document

/-- The parts of what is open fit in the room that there is inside of it. -/
def Frame.Fits (n : ℕ) : Frame → Prop
  | .arr items => ∀ item ∈ items, item.Fits n
  | .obj members _ => ∀ member ∈ members, member.2.Fits n

/-- All that is open fits; the number is the room that is left inside. -/
def FramesFit : ℕ → List Frame → Prop
  | n, [] => n = depthLimit
  | n, frame :: frames => frame.Fits n ∧ FramesFit (n + 1) frames

/-- What has been read last fits in the room. -/
def Expect.Fits (n : ℕ) : Expect → Prop
  | .value | .firstItem => True
  | .firstName => ∃ k, n = k + 1
  | .name members | .colon members _ => ∃ k, n = k + 1 ∧ ∀ member ∈ members, member.2.Fits k
  | .after document => document.Fits n

namespace Document

variable {n : ℕ} {frames : List Frame} {expect : Expect} {token : Token}

theorem length_of_framesFit (h : FramesFit n frames) : frames.length + n = depthLimit := by
  induction frames generalizing n with
  | nil => exact (Nat.zero_add n).trans h
  | cons frame frames ih =>
      have hlength := ih h.2
      rw [List.length_cons]
      omega

theorem exists_room (h : FramesFit n frames) (hroom : frames.length < depthLimit) :
    ∃ k, n = k + 1 := by
  have hlength := length_of_framesFit h
  exact ⟨n - 1, by omega⟩

theorem fits_closeAll {value : Document} (hvalue : value.Fits n) (h : FramesFit n frames) :
    (closeAll value frames).Fits depthLimit := by
  induction frames generalizing n value with
  | nil =>
      obtain rfl : n = depthLimit := h
      exact hvalue
  | cons frame frames ih =>
      obtain ⟨hframe, hframes⟩ := h
      cases frame with
      | arr items =>
          refine ih (.arr (fun item hitem => ?_) _) hframes
          rcases List.mem_cons.mp (List.mem_reverse.mp hitem) with rfl | hdone
          · exact hvalue
          · exact hframe item hdone
      | obj members name =>
          refine ih (.obj (fun member hmember => ?_) _) hframes
          rcases List.mem_cons.mp (List.mem_reverse.mp hmember) with rfl | hdone
          · exact hvalue
          · exact hframe member hdone

theorem fits_arr_reverse {items : List Document} (h : ∀ item ∈ items, item.Fits n)
    (ending : Ending) : Fits (n + 1) (.arr items.reverse ending) :=
  .arr (fun item hitem => h item (List.mem_reverse.mp hitem)) ending

theorem fits_obj_reverse {members : List (String × Document)}
    (h : ∀ member ∈ members, member.2.Fits n) (ending : Ending) :
    Fits (n + 1) (.obj members.reverse ending) :=
  .obj (fun member hmember => h member (List.mem_reverse.mp hmember)) ending

theorem fits_breakOff (expect : Expect) (hframes : FramesFit n frames) (hexpect : expect.Fits n)
    (fault : Fault) :
    (breakOff fault frames expect).Fits depthLimit := by
  have hbroken : (closeAll (.broken fault) frames).Fits depthLimit :=
    fits_closeAll (.broken n fault) hframes
  cases expect with
  | value => exact hbroken
  | firstItem =>
      cases fault with
      | malformed => exact hbroken
      | unfinished =>
          cases frames with
          | nil => exact hbroken
          | cons frame frames =>
              cases frame with
              | arr items => exact fits_closeAll (fits_arr_reverse hframes.1 _) hframes.2
              | obj members name => exact hbroken
  | firstName =>
      obtain ⟨k, rfl⟩ := hexpect
      exact fits_closeAll (.obj (List.forall_mem_nil _) _) hframes
  | name members =>
      obtain ⟨k, rfl, hmembers⟩ := hexpect
      exact fits_closeAll (fits_obj_reverse hmembers _) hframes
  | colon members name =>
      obtain ⟨k, rfl, hmembers⟩ := hexpect
      have hall : ∀ member ∈ (name, broken fault) :: members, member.2.Fits k :=
        List.forall_mem_cons.mpr ⟨.broken k fault, hmembers⟩
      exact fits_closeAll (fits_obj_reverse hall _) hframes
  | after value =>
      cases frames with
      | nil =>
          obtain rfl : n = depthLimit := hframes
          exact hexpect
      | cons frame frames =>
          obtain ⟨hframe, hframes⟩ := hframes
          cases frame with
          | arr items =>
              exact fits_closeAll
                (fits_arr_reverse (List.forall_mem_cons.mpr ⟨hexpect, hframe⟩) _) hframes
          | obj members name =>
              have hall : ∀ member ∈ (name, value) :: members, member.2.Fits n :=
                List.forall_mem_cons.mpr ⟨hexpect, hframe⟩
              exact fits_closeAll (fits_obj_reverse hall _) hframes

/-! ### Tokens keep what fits -/

/-- What a token leads to fits. -/
def StepFits : Step → Prop
  | .ok (frames, expect) => ∃ n, FramesFit n frames ∧ expect.Fits n
  | .error (document, _) => document.Fits depthLimit

theorem fits_onValue (hframes : FramesFit n frames) (hexpect : expect.Fits n)
    (htoken : token.Fits) : StepFits (onValue frames expect token) := by
  have hbroken : ∀ fault, StepFits (.error (closeAll (.broken fault) frames, false)) :=
    fun fault => fits_closeAll (.broken n fault) hframes
  have hnone : StepFits (.error (breakOff .malformed frames expect, false)) :=
    fits_breakOff expect hframes hexpect .malformed
  cases token with
  | null => exact ⟨n, hframes, .null n⟩
  | bool b => exact ⟨n, hframes, .bool n b⟩
  | num value => exact ⟨n, hframes, .num n htoken⟩
  | str s => exact ⟨n, hframes, .str n s⟩
  | openArr =>
      unfold onValue
      dsimp only
      split
      · rename_i hroom
        obtain ⟨k, rfl⟩ := exists_room hframes hroom
        exact ⟨k, ⟨nofun, hframes⟩, trivial⟩
      · exact hbroken .malformed
  | openObj =>
      unfold onValue
      dsimp only
      split
      · rename_i hroom
        exact ⟨n, hframes, exists_room hframes hroom⟩
      · exact hbroken .malformed
  | broken fault => exact hbroken fault
  | brokenStr fault => exact hbroken fault
  | closeArr | closeObj | colon | comma => exact hnone

theorem fits_onName (expect : Expect) {members : List (String × Document)} {k : ℕ}
    (hframes : FramesFit (k + 1) frames) (hexpect : expect.Fits (k + 1))
    (hmembers : ∀ member ∈ members, member.2.Fits k) (token : Token) :
    StepFits (onName frames expect members token) := by
  cases token with
  | str name => exact ⟨k + 1, hframes, k, rfl, hmembers⟩
  | _ => exact fits_breakOff expect hframes hexpect _

theorem fits_step (hframes : FramesFit n frames) (hexpect : expect.Fits n)
    (htoken : token.Fits) : StepFits (step frames expect token) := by
  cases expect with
  | value => exact fits_onValue hframes trivial htoken
  | firstItem =>
      unfold step
      dsimp only
      split
      · exact ⟨n + 1, hframes.2, fits_arr_reverse hframes.1 _⟩
      · exact fits_onValue hframes trivial htoken
  | firstName =>
      obtain ⟨k, rfl⟩ := hexpect
      unfold step
      dsimp only
      split
      · exact ⟨k + 1, hframes, .obj (List.forall_mem_nil _) _⟩
      · exact fits_onName .firstName hframes ⟨k, rfl⟩ (List.forall_mem_nil _) token
  | name members =>
      obtain ⟨k, rfl, hmembers⟩ := hexpect
      exact fits_onName (.name members) hframes ⟨k, rfl, hmembers⟩ hmembers token
  | colon members name =>
      obtain ⟨k, rfl, hmembers⟩ := hexpect
      unfold step
      dsimp only
      split
      · exact ⟨k, ⟨hmembers, hframes⟩, trivial⟩
      · exact fits_breakOff (.colon members name) hframes ⟨k, rfl, hmembers⟩ _
  | after value =>
      unfold step
      dsimp only
      split
      · obtain rfl : n = depthLimit := hframes
        exact hexpect
      · exact ⟨n, ⟨List.forall_mem_cons.mpr ⟨hexpect, hframes.1⟩, hframes.2⟩, trivial⟩
      · exact ⟨n + 1, hframes.2,
          fits_arr_reverse (List.forall_mem_cons.mpr ⟨hexpect, hframes.1⟩) _⟩
      · exact ⟨n + 1, hframes.2, n, rfl, List.forall_mem_cons.mpr ⟨hexpect, hframes.1⟩⟩
      · rename_i members name rest
        have hall : ∀ member ∈ (name, value) :: members, member.2.Fits n :=
          List.forall_mem_cons.mpr ⟨hexpect, hframes.1⟩
        exact ⟨n + 1, hframes.2, fits_obj_reverse hall _⟩
      · exact fits_breakOff (.after value) hframes hexpect _

theorem fits_build {tokens : List Token} (h : ∀ token ∈ tokens, token.Fits)
    (hframes : FramesFit n frames) (hexpect : expect.Fits n) :
    (build frames expect tokens).1.Fits depthLimit := by
  induction tokens generalizing n frames expect with
  | nil => exact fits_breakOff expect hframes hexpect .unfinished
  | cons token tokens ih =>
      obtain ⟨htoken, htokens⟩ := List.forall_mem_cons.mp h
      have hstep := fits_step hframes hexpect htoken
      rw [build]
      split
      · rename_i heq
        rw [heq] at hstep
        obtain ⟨m, hframes', hexpect'⟩ := hstep
        exact ih htokens hframes' hexpect'
      · rename_i heq
        rw [heq] at hstep
        exact hstep

theorem fits_ofText (text : String) : (ofText text).1.Fits depthLimit := by
  have hready : Scan.ready.Plain := trivial
  exact fits_build (n := depthLimit) (Scan.fits_run hready text.toList) rfl trivial

/-! ### Values of documents that fit -/

theorem toJson_arr_ok {items : List Document} {ending : Ending} {json : Json}
    (h : (arr items ending).toJson = .ok json) :
    ∃ values, itemsToJson items = .ok values ∧ json = .arr values := by
  rw [toJson] at h
  obtain ⟨values, hvalues, h⟩ := except_bind_eq_ok.mp h
  refine ⟨values, hvalues, ?_⟩
  cases ending with
  | closed => exact (Except.ok.inj h).symm
  | cut fault | cutBehindComma fault => cases h

theorem toJson_obj_ok {members : List (String × Document)} {ending : Ending} {json : Json}
    (h : (obj members ending).toJson = .ok json) :
    ∃ values, membersToJson members = .ok values ∧ json = Json.object values := by
  rw [toJson] at h
  obtain ⟨values, hvalues, h⟩ := except_bind_eq_ok.mp h
  refine ⟨values, hvalues, ?_⟩
  cases ending with
  | closed => exact (Except.ok.inj h).symm
  | cut fault | cutBehindComma fault => cases h

mutual

/-- The value of a document that fits does so too. -/
theorem fits_toJson : ∀ {document : Document} {n : ℕ} {json : Json}, document.Fits n →
    document.toJson = .ok json → json.Fits n
  | .null, n, json, _, h => by
    obtain rfl := Except.ok.inj h
    exact ⟨rfl, Nat.zero_le n⟩
  | .bool b, n, json, _, h => by
    obtain rfl := Except.ok.inj h
    exact ⟨rfl, Nat.zero_le n⟩
  | .str s, n, json, _, h => by
    obtain rfl := Except.ok.inj h
    exact ⟨rfl, Nat.zero_le n⟩
  | .num value, n, json, .num _ hfits, h => by
    obtain rfl := Except.ok.inj h
    cases value with
    | int i => exact ⟨decide_eq_true hfits, Nat.zero_le n⟩
    | float x => exact ⟨rfl, Nat.zero_le n⟩
  | .arr items ending, _, json, .arr hfits _, h => by
    obtain ⟨values, hvalues, rfl⟩ := toJson_arr_ok h
    exact fits_arr (fits_itemsToJson hfits hvalues)
  | .obj members ending, _, json, .obj hfits _, h => by
    obtain ⟨values, hvalues, rfl⟩ := toJson_obj_ok h
    exact fits_object (fits_membersToJson hfits hvalues)
  | .broken fault, n, json, _, h => nomatch h

theorem fits_itemsToJson : ∀ {items : List Document} {n : ℕ} {values : List Json},
    (∀ item ∈ items, item.Fits n) → itemsToJson items = .ok values →
    ∀ value ∈ values, value.Fits n
  | [], n, values, _, h => by
    obtain rfl := Except.ok.inj h
    exact List.forall_mem_nil _
  | item :: items, n, values, hfits, h => by
    obtain ⟨hitem, hitems⟩ := List.forall_mem_cons.mp hfits
    rw [itemsToJson] at h
    obtain ⟨value, hvalue, h⟩ := except_bind_eq_ok.mp h
    obtain ⟨rest, hrest, h⟩ := except_bind_eq_ok.mp h
    obtain rfl := Except.ok.inj h
    exact List.forall_mem_cons.mpr ⟨fits_toJson hitem hvalue, fits_itemsToJson hitems hrest⟩

theorem fits_membersToJson : ∀ {members : List (String × Document)} {n : ℕ}
    {values : List (String × Json)}, (∀ member ∈ members, member.2.Fits n) →
    membersToJson members = .ok values → ∀ member ∈ values, member.2.Fits n
  | [], n, values, _, h => by
    obtain rfl := Except.ok.inj h
    exact List.forall_mem_nil _
  | (name, item) :: members, n, values, hfits, h => by
    obtain ⟨hitem, hmembers⟩ := List.forall_mem_cons.mp hfits
    rw [membersToJson] at h
    obtain ⟨value, hvalue, h⟩ := except_bind_eq_ok.mp h
    obtain ⟨rest, hrest, h⟩ := except_bind_eq_ok.mp h
    obtain rfl := Except.ok.inj h
    exact List.forall_mem_cons.mpr ⟨fits_toJson hitem hvalue, fits_membersToJson hmembers hrest⟩

end

end Document

end ModelSurface.Json
