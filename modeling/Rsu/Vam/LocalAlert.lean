import Rsu.Vam.Broadcast

/-!
# `cv_vam_api.c`: the alerts of the node itself

A vehicle keeps its own alerts in `local.alert_mask`; a road-side unit uses the
same word for the types of its road-side alerts.
-/

namespace Rsu.Vam

open Rsu.Data.BitMask Rsu.Rcp

/-- `RSA_TYPE_CURVE` -/
def rsaTypeCurve : Nat := 1

namespace VamEnvar

/-- `local.alert_mask` after an assignment. -/
def withAlertMask (vam : VamEnvar) (mask : BitVec 16) : VamEnvar :=
  { vam with localSta := { vam.localSta with alertMask := mask } }

/-- `vam_active_alert` -/
def vamActiveAlert (vam : VamEnvar) (alert : BitVec 16) : VamEnvar :=
  { vam.withAlertMask (set vam.localSta.alertMask alert) with
    flag := set vam.flag vamFlagTxBsmAlert }

/-- `vam_cancel_alert` -/
def vamCancelAlert (vam : VamEnvar) (alert : BitVec 16) : VamEnvar :=
  vam.withAlertMask (clear vam.localSta.alertMask alert)

/-- `vam_stop_alert` -/
def vamStopAlert (vam : VamEnvar) : VamEnvar :=
  { vam with
    flag := clear vam.flag vamFlagTxEvam
    timerSendEvam := vam.timerSendEvam.stop }

/-- `vam_active_rsa` -/
def vamActiveRsa (vam : VamEnvar) (rsaType : Nat) : VamEnvar :=
  vam.withAlertMask (set vam.localSta.alertMask (BitVec.twoPow 16 rsaType))

/-- `vam_cancel_rsa` -/
def vamCancelRsa (vam : VamEnvar) (rsaType : Nat) : VamEnvar :=
  vam.withAlertMask (clear vam.localSta.alertMask (BitVec.twoPow 16 rsaType))

end VamEnvar

end Rsu.Vam
