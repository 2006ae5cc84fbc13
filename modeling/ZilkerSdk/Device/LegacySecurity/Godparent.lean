import Mathlib.Data.List.MinMax
import Mathlib.Data.Prod.Lex

/-!
# The godparent of a legacy device

The godparent of a device is the node that hears it best.  The coordinator records itself when it
hears a ping, and the routers report how well they heard it.  A report is compared with the record
only while that is the coordinator's, so the first router that is better than a weak coordinator
stays, however well later ones heard the device.
-/

namespace ZilkerSdk.Device.LegacySecurity

open List

/-- How well a node heard a ping.  The coordinator has the number 0.  The metadata are the decimal
texts of the numbers, from which `getGodparentPingInfo` reads the same numbers. -/
structure PingInfo where
  godparent : UInt8
  rssi : Int8
  lqi : UInt8
deriving DecidableEq

/-- By `GODPARENT_LQI_THRESHOLD` and `GODPARENT_RSSI_THRESHOLD`. -/
def PingInfo.GoodEnough (info : PingInfo) : Prop := 236 ≤ info.lqi ∧ -85 ≤ info.rssi

instance (info : PingInfo) : Decidable info.GoodEnough := inferInstanceAs (Decidable (_ ∧ _))

/-- The record is the coordinator's and not good enough to stay. -/
def PingInfo.Replaceable (info : PingInfo) : Prop := info.godparent = 0 ∧ ¬info.GoodEnough

instance (info : PingInfo) : Decidable info.Replaceable := inferInstanceAs (Decidable (_ ∧ ¬_))

/-- The coordinator heard a ping. -/
def handlePingMessage (rssi : Int8) (lqi : UInt8) : PingInfo := ⟨0, rssi, lqi⟩

/-- What a message says about its sender. -/
def senderInfo (commandData : List UInt8) : PingInfo :=
  ⟨commandData.getD 0 0, (commandData.getD 10 0).toInt8, commandData.getD 11 0⟩

/-- The record of the target device after a message, and whether the message was handled. -/
def handleGodparentInfoMessage (info : PingInfo) (commandData : List UInt8) : PingInfo × Bool :=
  if commandData.length < 12 then (info, false)
  else
    let sender := senderInfo commandData
    if info.Replaceable ∧
        (sender.lqi > info.lqi ∨ (sender.lqi = info.lqi ∧ sender.rssi > info.rssi)) then
      (sender, true)
    else (info, true)

/-- The record after messages. -/
def recorded (info : PingInfo) (messages : List (List UInt8)) : PingInfo :=
  messages.foldl (fun info commandData => (handleGodparentInfoMessage info commandData).1) info

/-! ## What the record is for -/

/-- The routers of the messages. -/
def reported (messages : List (List UInt8)) : List PingInfo :=
  (messages.filter (12 ≤ length ·)).map senderInfo

/-- The `(lqi, rssi)` pair, in lexicographic order. -/
def PingInfo.quality (info : PingInfo) : ℕ ×ₗ ℕ :=
  toLex (info.lqi.toNat, (info.rssi.toInt + 128).toNat)

/-- The coordinator if it is good enough, and otherwise the first of the best. -/
def bestHeard (coordinator : PingInfo) (routers : List PingInfo) : Option PingInfo :=
  if coordinator.GoodEnough then some coordinator
  else argmax PingInfo.quality (coordinator :: routers)

/-- No better router follows the first one that is better than all before it and whose record
stays. -/
def NoBetterLater (best : PingInfo) : List PingInfo → Prop
  | [] => True
  | router :: routers =>
    if best.quality < router.quality then
      if router.Replaceable then NoBetterLater router routers
      else ∀ later ∈ routers, later.quality ≤ router.quality
    else NoBetterLater best routers

variable {info router : PingInfo} {routers : List PingInfo}

/-- The record after one more report. -/
def PingInfo.hear (info router : PingInfo) : PingInfo :=
  if info.Replaceable ∧ info.quality < router.quality then router else info

theorem quality_lt_iff :
    info.quality < router.quality ↔
      router.lqi > info.lqi ∨ (router.lqi = info.lqi ∧ router.rssi > info.rssi) := by
  have hrssi := info.rssi.le_toInt
  simp only [PingInfo.quality, Prod.Lex.toLex_lt_toLex, gt_iff_lt, UInt8.lt_iff_toNat_lt,
    Int8.lt_iff_toInt_lt, ← UInt8.toNat_inj]
  omega

theorem recorded_eq (info : PingInfo) (messages : List (List UInt8)) :
    recorded info messages = (reported messages).foldl PingInfo.hear info := by
  induction messages generalizing info with
  | nil => rfl
  | cons message messages ih =>
    rw [recorded, foldl_cons, handleGodparentInfoMessage, reported]
    split
    next h =>
      rw [filter_cons_of_neg (by simpa using h)]
      exact ih info
    next h =>
      rw [filter_cons_of_pos (by simpa using h), map_cons, foldl_cons, PingInfo.hear]
      simp only [quality_lt_iff]
      split <;> exact ih _

theorem foldl_hear_of_not_replaceable (h : ¬info.Replaceable) (routers : List PingInfo) :
    routers.foldl PingInfo.hear info = info := by
  induction routers with
  | nil => rfl
  | cons router routers ih => rw [foldl_cons, PingInfo.hear, if_neg fun hboth => h hboth.1, ih]

theorem argmax_eq_head_iff :
    argmax PingInfo.quality (info :: routers) = some info ↔
      ∀ router ∈ routers, router.quality ≤ info.quality := by
  rw [← Option.mem_def, mem_argmax_iff]
  simp

theorem argmax_cons_cons :
    argmax PingInfo.quality (info :: router :: routers) =
      argmax PingInfo.quality
        ((if info.quality < router.quality then router else info) :: routers) := by
  simp only [argmax, foldl_cons, argAux]
  split <;> rfl

theorem argmax_eq_foldl_hear_iff (h : info.Replaceable) :
    argmax PingInfo.quality (info :: routers) = some (routers.foldl PingInfo.hear info) ↔
      NoBetterLater info routers := by
  induction routers generalizing info with
  | nil => exact iff_of_true rfl trivial
  | cons router routers ih =>
    rw [argmax_cons_cons, foldl_cons, PingInfo.hear, NoBetterLater]
    simp only [h, true_and]
    split
    · split
      next hrouter => exact ih hrouter
      next hrouter => rw [foldl_hear_of_not_replaceable hrouter, argmax_eq_head_iff]
    · exact ih h

/-- After a ping that the coordinator heard and any messages about the device, its record is the
best node exactly if the coordinator is good enough or no better router follows the first one that
takes its place. -/
theorem godparent_best_iff (rssi : Int8) (lqi : UInt8) (messages : List (List UInt8)) :
    some (recorded (handlePingMessage rssi lqi) messages) =
        bestHeard ⟨0, rssi, lqi⟩ (reported messages) ↔
      PingInfo.GoodEnough ⟨0, rssi, lqi⟩ ∨ NoBetterLater ⟨0, rssi, lqi⟩ (reported messages) := by
  rw [recorded_eq, handlePingMessage, bestHeard]
  split
  next h =>
    rw [foldl_hear_of_not_replaceable fun hreplaceable => hreplaceable.2 h]
    exact iff_of_true rfl (.inl h)
  next h => rw [eq_comm, argmax_eq_foldl_hear_iff ⟨rfl, h⟩, or_iff_right h]

/-- Router 1 heard the ping better than the coordinator, and router 2 better than router 1, but
router 1 stays. -/
theorem second_router_not_recorded :
    recorded (handlePingMessage (-90) 5)
        [[1, 9, 0, 0, 0, 0, 0, 0, 0, 0, 0, 10], [2, 9, 0, 0, 0, 0, 0, 0, 0, 0, 0, 20]] =
      ⟨1, 0, 10⟩ ∧
    bestHeard ⟨0, -90, 5⟩ [⟨1, 0, 10⟩, ⟨2, 0, 20⟩] = some ⟨2, 0, 20⟩ := by
  decide

end ZilkerSdk.Device.LegacySecurity
