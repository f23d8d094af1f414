import SeriesCalc.Proofs.Values.Selections
import SeriesCalc.Proofs.NestedWrites
import SeriesCalc.Proofs.Values.Invariant
import SeriesCalc.Proofs.Dataset.Labels

/-!
# String subscripts count characters

A string is read by `s[i]` and `s[i:j]` (`indexValue`) and written by `s[i] = c` on a variable
(`Assign.writeChar`). Both take 1-based float indices through the positions of `Selections`
and then walk the string's characters (`String.toList`), never its bytes.

* `getElem?_substring`: character `k` of the substring `lo..hi` is character `lo + k` of the
  string, for `k ≤ hi - lo`, and there is no other.
* `indexValue_str_num`, `indexValue_str_range`: reading is a position or a range, then a
  substring.
* `Assign.writeChar_eq_ok`: a character write succeeds exactly for a plain `=` of a
  one-character string at one index naming a character, and replaces that character.
* `Assign.write_char_exec`: the write on a variable stores the new string in it, and a write that
  fails leaves the workspace as it was.
* `string_subscripts_count_characters`: below `2^53` characters, reads and writes agree on the
  character a 1-based index names, and what a write leaves is read back.
-/

namespace SeriesCalc

/-! ## Reading -/

/-- Character `k` of the substring `lo..hi` is character `lo + k` of the string, for
`k ≤ hi - lo`; there are no others. -/
theorem getElem?_substring (s : String) (lo hi k : Nat) :
    (substring s lo hi).toList[k]? = if k < hi + 1 - lo then s.toList[lo + k]? else none := by
  unfold substring
  rw [String.toList_ofList, List.getElem?_take, List.getElem?_drop]

/-- A one-character substring at a character of the string is that character. -/
theorem substring_self {s : String} {p : Nat} {c : Char} (h : s.toList[p]? = some c) :
    substring s p p = String.ofList [c] := by
  unfold substring
  congr 1
  rw [Nat.add_sub_cancel_left, List.take_one, List.head?_drop, h]
  rfl

/-- `s[x]` is the substring at the position `x` names. -/
theorem indexValue_str_num (s : String) (x : Float) (ds : Dataset) :
    indexValue (.str s) [.num x] ds = (position x s.length).map fun p => .str (substring s p p) := by
  unfold indexValue
  dsimp only
  cases position x s.length <;> rfl

/-- `s[lo:hi]` is the substring between the positions the range names. -/
theorem indexValue_str_range (s : String) (lo hi : Float) (ds : Dataset) :
    indexValue (.str s) [.range lo hi] ds =
      (positionRange lo hi s.length).map fun b => .str (substring s b.1 b.2) := by
  unfold indexValue
  dsimp only
  cases positionRange lo hi s.length <;> rfl

/-- A mapped result that returns came from a result that returned. -/
theorem Except.map_eq_ok_iff {ε α β : Type} {e : Except ε α} {f : α → β} {b : β} :
    e.map f = .ok b ↔ ∃ a, e = .ok a ∧ f a = b := by
  cases e with
  | error x => exact ⟨(fun h => by cases h), fun ⟨a, ha, _⟩ => by cases ha⟩
  | ok a =>
    refine ⟨fun h => ⟨a, rfl, ?_⟩, fun ⟨a', ha, hb⟩ => ?_⟩
    · cases h
      rfl
    · cases ha
      rw [← hb]
      rfl

/-- Below `2^53` characters, `s[x]` is the one-character string of character `p` exactly when
`x` is the float of `p + 1`. -/
theorem indexValue_str_num_eq_ok {s : String} {x : Float} {ds : Dataset} {v : Value}
    (hn : s.length < 2 ^ 53) :
    indexValue (.str s) [.num x] ds = .ok v ↔
      ∃ p c, s.toList[p]? = some c ∧ x = (p + 1).toFloat ∧ v = .str (String.ofList [c]) := by
  rw [indexValue_str_num, Except.map_eq_ok_iff]
  constructor
  · rintro ⟨p, hp, rfl⟩
    obtain ⟨hlt, rfl⟩ := (position_eq_ok hn).mp hp
    have hc : s.toList[p]? = some s.toList[p] :=
      List.getElem?_eq_getElem (by rw [String.length_toList]; exact hlt)
    exact ⟨p, _, hc, rfl, by rw [substring_self hc]⟩
  · rintro ⟨p, c, hc, rfl, rfl⟩
    have hlt : p < s.length := by
      rw [← String.length_toList]
      exact (List.getElem?_eq_some_iff.mp hc).1
    exact ⟨p, (position_eq_ok hn).mpr ⟨hlt, rfl⟩, by rw [substring_self hc]⟩

/-- Below `2^53` characters, `s[lo:hi]` is characters `p..q` exactly when `lo` and `hi` are the
floats of `p + 1 ≤ q + 1 ≤ length`: its character `k` is character `p + k` of `s`, for
`k ≤ q - p`, and it has no others. -/
theorem indexValue_str_range_eq_ok {s : String} {lo hi : Float} {ds : Dataset} {v : Value}
    (hn : s.length < 2 ^ 53) :
    indexValue (.str s) [.range lo hi] ds = .ok v ↔
      ∃ p q t, p ≤ q ∧ q < s.length ∧ lo = (p + 1).toFloat ∧ hi = (q + 1).toFloat ∧ v = .str t ∧
        ∀ k, t.toList[k]? = if k ≤ q - p then s.toList[p + k]? else none := by
  have hchars : ∀ p q k, p ≤ q → (substring s p q).toList[k]? =
      if k ≤ q - p then s.toList[p + k]? else none := by
    intro p q k hpq
    rw [getElem?_substring]
    exact if_congr (by omega) rfl rfl
  rw [indexValue_str_range, Except.map_eq_ok_iff]
  constructor
  · rintro ⟨⟨p, q⟩, hpq, rfl⟩
    obtain ⟨hle, hq, rfl, rfl⟩ := (positionRange_eq_ok hn).mp hpq
    exact ⟨p, q, _, hle, hq, rfl, rfl, rfl, fun k => hchars p q k hle⟩
  · rintro ⟨p, q, t, hle, hq, rfl, rfl, rfl, ht⟩
    refine ⟨(p, q), (positionRange_eq_ok hn).mpr ⟨hle, hq, rfl, rfl⟩, ?_⟩
    -- the substring and `t` have the same characters
    have heq : substring s p q = t :=
      String.ext (List.ext_getElem? fun k => by rw [hchars p q k hle, ht k])
    rw [heq]

/-! ## Writing -/

namespace Assign

open WriteM

theorem beq_assign_iff {op : AssignOp} : (op == .assign) = true ↔ op = .assign := by
  cases op <;> decide

/-- Only plain `=` passes `plainOnly`. -/
theorem plainOnly_eq_ok {t : Target} {op : AssignOp} {what : String} :
    plainOnly t op what = .ok () ↔ op = .assign := by
  unfold plainOnly
  split
  · rename_i h
    exact ⟨fun _ => beq_assign_iff.mp h, fun _ => rfl⟩
  · rename_i h
    exact ⟨(fun he => by cases he), fun hop => absurd (beq_assign_iff.mpr hop) h⟩

/-- A character write succeeds exactly for a plain `=` of a one-character string at one index
naming a character, and replaces that character. -/
theorem writeChar_eq_ok {s s' : String} {args : List Subscript} {op : AssignOp} {rhs : Operand}
    {t : Target} :
    writeChar s args op rhs t = .ok s' ↔
      op = .assign ∧ ∃ x p c, args = [.num x] ∧ position x s.length = .ok p ∧
        rhs.value = .str (String.ofList [c]) ∧ s' = String.ofList (s.toList.set p c) := by
  constructor
  · intro h
    unfold writeChar at h
    obtain ⟨u, hplain, h⟩ := Except.bind_eq_ok h
    dsimp only at h
    refine ⟨plainOnly_eq_ok.mp hplain, ?_⟩
    -- one index, then a position, then a one-character string
    split at h
    · obtain ⟨i, hi, h⟩ := Except.bind_eq_ok h
      cases hi
      obtain ⟨p, hp, h⟩ := Except.bind_eq_ok h
      split at h
      · rename_i new hnew
        split at h
        · rename_i c hc
          cases h
          refine ⟨_, p, c, rfl, hp, ?_, rfl⟩
          rw [hnew, ← hc, String.ofList_toList]
        · cases h
      · cases h
    · obtain ⟨i, hi, -⟩ := Except.bind_eq_ok h
      cases hi
  · rintro ⟨rfl, x, p, c, rfl, hp, hv, rfl⟩
    unfold writeChar
    simp only [pure_bind, hp, hv, String.toList_ofList]
    rfl

/-- A write at a string's character step: the character write, stored as a string. -/
theorem writeLeaf_str (s : String) (args : List Subscript) (op : AssignOp) (rhs : Operand)
    (t : Target) (ws : Workspace) :
    (writeLeaf (.str s) (.sub args) op rhs t).exec ws = ((writeChar s args op rhs t).map Value.str, ws) := by
  have hacc : accessor (.str s) (.sub args) = .ok none := rfl
  simp only [writeLeaf, exec_bind, exec_lift, hacc]
  cases writeChar s args op rhs t <;> rfl

/-- `v[args] op= rhs` on a variable holding a string: the character write, stored back in the
variable; a write that fails leaves the workspace as it was. -/
theorem write_char_exec {place : Place} {vid : Nat} {s : String} {args : List Subscript}
    {op : AssignOp} {rhs : Operand} {target : DeclaredType} {ws : Workspace}
    (hroot : place.root = .var vid) (hsteps : place.steps = [.sub args])
    (hslot : ws.vars.get? vid = some (.str s)) :
    (write place op rhs target).exec ws =
      match writeChar s args op rhs ⟨ws.dataset, target, place.text⟩ with
      | .ok s' => (.ok (), { ws with vars := ws.vars.setSlot vid (.str s') })
      | .error e => (.error e, ws) := by
  have hwrite : write place op rhs target = nested place op rhs target := by
    rw [write, hsteps]
    rfl
  have hinto := writeInto_reaches (.nil (.str s)) (.sub args) op rhs ⟨ws.dataset, target, place.text⟩ ws
  rw [List.nil_append, writeLeaf_str] at hinto
  rw [hwrite, nested_var_exec hroot hslot, hsteps, hinto]
  cases writeChar s args op rhs ⟨ws.dataset, target, place.text⟩ <;> rfl

/-- Below `2^53` characters, a write on a variable holding a string succeeds exactly for a
plain `=` of a one-character string at one index naming a character. -/
theorem write_char_ok_iff {place : Place} {vid : Nat} {s : String} {args : List Subscript}
    {op : AssignOp} {rhs : Operand} {target : DeclaredType} {ws : Workspace}
    (hn : s.length < 2 ^ 53) (hroot : place.root = .var vid) (hsteps : place.steps = [.sub args])
    (hslot : ws.vars.get? vid = some (.str s)) :
    ((write place op rhs target).exec ws).1 = .ok () ↔
      op = .assign ∧ ∃ x p c, args = [.num x] ∧ x = (p + 1).toFloat ∧ p < s.length ∧
        rhs.value = .str (String.ofList [c]) := by
  have hspec : ∀ s', writeChar s args op rhs ⟨ws.dataset, target, place.text⟩ = .ok s' →
      op = .assign ∧ ∃ x p c, args = [.num x] ∧ x = (p + 1).toFloat ∧ p < s.length ∧
        rhs.value = .str (String.ofList [c]) := by
    intro s' h
    obtain ⟨hop, x, p, c, hargs, hp, hv, -⟩ := writeChar_eq_ok.mp h
    obtain ⟨hlt, rfl⟩ := (position_eq_ok hn).mp hp
    exact ⟨hop, _, p, c, hargs, rfl, hlt, hv⟩
  rw [write_char_exec hroot hsteps hslot]
  cases hw : writeChar s args op rhs ⟨ws.dataset, target, place.text⟩ with
  | error e =>
    refine ⟨(fun h => by cases h), ?_⟩
    rintro ⟨hop, x, p, c, hargs, rfl, hlt, hv⟩
    have := (writeChar_eq_ok (t := ⟨ws.dataset, target, place.text⟩)).mpr
      ⟨hop, _, p, c, hargs, (position_eq_ok hn).mpr ⟨hlt, rfl⟩, hv, rfl⟩
    rw [hw] at this
    cases this
  | ok s' => exact ⟨fun _ => hspec s' hw, fun _ => rfl⟩

/-- What a character write that succeeds leaves: the variable holds a string of the same
length whose character `p` is the written one and whose other characters are as before, and
the same index reads the written character back. -/
theorem write_char_stores {place : Place} {vid : Nat} {s : String} {args : List Subscript}
    {op : AssignOp} {rhs : Operand} {target : DeclaredType} {ws ws' : Workspace}
    (hn : s.length < 2 ^ 53) (hroot : place.root = .var vid) (hsteps : place.steps = [.sub args])
    (hslot : ws.vars.get? vid = some (.str s)) (h : (write place op rhs target).exec ws = (.ok (), ws')) :
    ∃ x p c s', args = [.num x] ∧ x = (p + 1).toFloat ∧ rhs.value = .str (String.ofList [c]) ∧
      ws' = { ws with vars := ws.vars.setSlot vid (.str s') } ∧ s'.length = s.length ∧
      s'.toList[p]? = some c ∧ (∀ k, k ≠ p → s'.toList[k]? = s.toList[k]?) ∧
      ∀ ds, indexValue (.str s') [.num x] ds = .ok (.str (String.ofList [c])) := by
  rw [write_char_exec hroot hsteps hslot] at h
  cases hw : writeChar s args op rhs ⟨ws.dataset, target, place.text⟩ with
  | error e =>
    rw [hw] at h
    cases h
  | ok s' =>
    rw [hw] at h
    cases h
    obtain ⟨-, x, p, c, hargs, hp, hv, rfl⟩ := writeChar_eq_ok.mp hw
    obtain ⟨hlt, rfl⟩ := (position_eq_ok hn).mp hp
    have hlt' : p < s.toList.length := by
      rw [String.length_toList]
      exact hlt
    -- the new characters are the old ones with character `p` replaced
    have hlen : (String.ofList (s.toList.set p c)).length = s.length := by
      rw [← String.length_toList, String.toList_ofList, List.length_set, String.length_toList]
    have hself : (String.ofList (s.toList.set p c)).toList[p]? = some c := by
      rw [String.toList_ofList, List.getElem?_set_self hlt']
    refine ⟨_, p, c, _, hargs, rfl, hv, rfl, hlen, hself, fun k hk => ?_, fun ds => ?_⟩
    · rw [String.toList_ofList, List.getElem?_set_ne (Ne.symm hk)]
    · exact (indexValue_str_num_eq_ok (hlen ▸ hn)).mpr ⟨p, c, hself, rfl, rfl⟩

/-- A character write that fails leaves the workspace as it was. -/
theorem write_char_error {place : Place} {vid : Nat} {s : String} {args : List Subscript}
    {op : AssignOp} {rhs : Operand} {target : DeclaredType} {ws ws' : Workspace} {e : EvalError}
    (hroot : place.root = .var vid) (hsteps : place.steps = [.sub args])
    (hslot : ws.vars.get? vid = some (.str s)) (h : (write place op rhs target).exec ws = (.error e, ws')) :
    ws' = ws := by
  rw [write_char_exec hroot hsteps hslot] at h
  cases hw : writeChar s args op rhs ⟨ws.dataset, target, place.text⟩ with
  | error e' =>
    rw [hw] at h
    cases h
    rfl
  | ok s' =>
    rw [hw] at h
    cases h

end Assign

open Assign in
/-- String subscripts count characters. For a string `s` of fewer than `2^53` characters:
`s[x]` is the one-character string of character `p` exactly when `x` is the float of `p + 1`;
`s[lo:hi]` is characters `p..q` exactly when `lo` and `hi` are the floats of
`p + 1 ≤ q + 1 ≤ length`. Held in a variable, `s[args] op= rhs` succeeds exactly for a plain
`=` of a one-character string `c` at one such index; the variable then holds a string of the same
length with `c` at that character and the others as before, which the same index reads back as
`c`; a write that fails leaves the workspace as it was. -/
theorem string_subscripts_count_characters {s : String} (hn : s.length < 2 ^ 53) :
    (∀ (x : Float) (ds : Dataset) (v : Value),
      indexValue (.str s) [.num x] ds = .ok v ↔
        ∃ p c, s.toList[p]? = some c ∧ x = (p + 1).toFloat ∧ v = .str (String.ofList [c])) ∧
    (∀ (lo hi : Float) (ds : Dataset) (v : Value),
      indexValue (.str s) [.range lo hi] ds = .ok v ↔
        ∃ p q t, p ≤ q ∧ q < s.length ∧ lo = (p + 1).toFloat ∧ hi = (q + 1).toFloat ∧ v = .str t ∧
          ∀ k, t.toList[k]? = if k ≤ q - p then s.toList[p + k]? else none) ∧
    ∀ (place : Place) (vid : Nat) (args : List Subscript) (op : AssignOp) (rhs : Operand)
      (target : DeclaredType) (ws : Workspace),
      place.root = .var vid → place.steps = [.sub args] → ws.vars.get? vid = some (.str s) →
      (((write place op rhs target).exec ws).1 = .ok () ↔
        op = .assign ∧ ∃ x p c, args = [.num x] ∧ x = (p + 1).toFloat ∧ p < s.length ∧
          rhs.value = .str (String.ofList [c])) ∧
      (∀ ws', (write place op rhs target).exec ws = (.ok (), ws') →
        ∃ x p c s', args = [.num x] ∧ x = (p + 1).toFloat ∧ rhs.value = .str (String.ofList [c]) ∧
          ws' = { ws with vars := ws.vars.setSlot vid (.str s') } ∧ s'.length = s.length ∧
          s'.toList[p]? = some c ∧ (∀ k, k ≠ p → s'.toList[k]? = s.toList[k]?) ∧
          ∀ ds, indexValue (.str s') [.num x] ds = .ok (.str (String.ofList [c]))) ∧
      ∀ e ws', (write place op rhs target).exec ws = (.error e, ws') → ws' = ws :=
  ⟨fun _ _ _ => indexValue_str_num_eq_ok hn, fun _ _ _ _ => indexValue_str_range_eq_ok hn,
    fun _ _ _ _ _ _ _ hroot hsteps hslot => ⟨write_char_ok_iff hn hroot hsteps hslot,
      fun _ h => write_char_stores hn hroot hsteps hslot h,
      fun _ _ h => write_char_error hroot hsteps hslot h⟩⟩

/-- `"héllo"[2]` is `"é"`, a character of two bytes. -/
theorem accented_second_character :
    "héllo".length < 2 ^ 53 ∧
      indexValue (.str "héllo") [.num 2] (Dataset.create 0) = .ok (.str (String.ofList ['é'])) :=
  have hn : "héllo".length < 2 ^ 53 := by decide
  ⟨hn, ((string_subscripts_count_characters hn).1 2 (Dataset.create 0) _).mpr
    ⟨1, 'é', by decide, rfl, rfl⟩⟩

end SeriesCalc
