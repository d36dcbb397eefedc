import TympanApo.FxProperties
import TympanApo.Inf
import TympanApo.Raw.Register

/-!
# One identifier, five renderings

A `Clsid` leaves the library as a 128-bit integer, as the text of `Display`,
as the digits and the text without braces of the INF file, and as the payload
of a `VT_CLSID` property.  The renderings agree with each other and each of
them determines the identifier.
-/

namespace TympanApo.Clsid

open TympanApo.FxProperties (serializeClsidProperty serializeClsidProperty_eq)
open TympanApo.Inf (clsidIdString clsidNoBraces clsidBrace classPath)
open TympanApo.Support

/-! ## Reading a property -/

/-- A `VT_CLSID` property by its documented layout. -/
def readClsidProperty (bs : List UInt8) : Option Clsid :=
  if bs.length = 24 ∧ ofLeBytes (bs.take 4) = 72 ∧
      (bs.drop 4).take 4 = List.replicate 4 0 then
    some (Clsid.ofGuid (guidOfBytes (bs.drop 8)))
  else none

theorem readClsidProperty_serializeClsidProperty (c : Clsid) :
    readClsidProperty (serializeClsidProperty c) = some c := by
  have hvt : (serializeClsidProperty c).take 4 = leBytes 4 72 := by
    rw [serializeClsidProperty_eq, List.append_assoc]
    exact List.take_left' (length_leBytes _ _)
  have hreserved : ((serializeClsidProperty c).drop 4).take 4 =
      List.replicate 4 0 := by
    rw [serializeClsidProperty_eq, List.append_assoc,
      List.drop_left' (length_leBytes _ _)]
    exact List.take_left' List.length_replicate
  have hguid : (serializeClsidProperty c).drop 8 = guidBytes c.toGuid := by
    rw [serializeClsidProperty_eq]
    exact List.drop_left' (by simp)
  have hcode : ofLeBytes (leBytes 4 72) = 72 := by decide
  rw [readClsidProperty, hvt, hreserved, hguid, hcode,
    if_pos ⟨FxProperties.length_serializeClsidProperty c, rfl, rfl⟩,
    guidOfBytes_guidBytes, Clsid.ofGuid_toGuid]

/-! ## The texts of the INF file -/

/-- The digits of the INF file are those of the integer. -/
theorem toList_clsidIdString (c : Clsid) :
    (clsidIdString c).toList = hexChars 32 c.toU128.toNat := by
  rw [hexChars_toU128, clsidIdString, String.toList_append,
    String.toList_append, String.toList_append, String.toList_join,
    List.flatMap_map]
  simp only [toList_hex]

theorem clsidIdString_injective : Function.Injective clsidIdString := by
  intro c c' h
  have hdigits := congrArg String.toList h
  rw [toList_clsidIdString, toList_clsidIdString] at hdigits
  exact hexChars_toU128_injective hdigits

theorem clsidNoBraces_injective : Function.Injective clsidNoBraces := by
  intro c c' h
  have hwrapped : clsidBrace c = clsidBrace c' :=
    congrArg (fun s => "\x7b" ++ s ++ "\x7d") h
  rw [Inf.clsidBrace_eq, Inf.clsidBrace_eq] at hwrapped
  exact display_injective hwrapped

/-! ## Agreement -/

/-- The registration prepends `Software\Classes` to the path of the INF
file. -/
theorem clsidSubkey_eq (c : Clsid) :
    Register.clsidSubkey c = "Software\\Classes\\" ++ classPath c := by
  have hroot : "Software\\Classes\\CLSID\\" =
      "Software\\Classes\\" ++ "CLSID\\" := by
    decide
  calc Register.clsidSubkey c
    _ = "Software\\Classes\\CLSID\\" ++ c.display := rfl
    _ = "Software\\Classes\\" ++ "CLSID\\" ++ c.display :=
      congrArg (· ++ c.display) hroot
    _ = "Software\\Classes\\" ++ ("CLSID\\" ++ c.display) :=
      String.append_assoc
    _ = "Software\\Classes\\" ++ classPath c :=
      congrArg (fun s => "Software\\Classes\\" ++ ("CLSID\\" ++ s))
        (Inf.clsidBrace_eq c).symm

/-- The renderings of one identifier agree. -/
structure Agree (c : Clsid) : Prop where
  integer : fromU128 c.toU128 = c
  /-- The text without its separators is the digits of the INF file. -/
  digits : String.ofList (c.display.toList.filter notSeparator) =
    clsidIdString c
  hexadecimal : clsidIdString c = hex 32 c.toU128.toNat
  wrapped : "\x7b" ++ clsidNoBraces c ++ "\x7d" = c.display
  /-- The INF file and the registration name one key. -/
  subkey : Register.clsidSubkey c = "Software\\Classes\\" ++ classPath c
  property : readClsidProperty (serializeClsidProperty c) = some c

theorem agree (c : Clsid) : Agree c where
  integer := fromU128_toU128 c
  digits := by
    rw [filter_display, ← toList_clsidIdString, String.ofList_toList]
  hexadecimal := by
    rw [hex, ← toList_clsidIdString, String.ofList_toList]
  wrapped := Inf.clsidBrace_eq c
  subkey := clsidSubkey_eq c
  property := readClsidProperty_serializeClsidProperty c

/-- Every integer is that of one identifier, the renderings of every
identifier agree, and each rendering determines it. -/
theorem renderings_agree :
    (∀ value : BitVec 128, (fromU128 value).toU128 = value) ∧
      (∀ c : Clsid, Agree c) ∧
      Function.Injective toU128 ∧ Function.Injective display ∧
      Function.Injective clsidIdString ∧ Function.Injective clsidNoBraces ∧
      Function.Injective serializeClsidProperty :=
  ⟨toU128_fromU128, agree, toU128_injective, display_injective,
    clsidIdString_injective, clsidNoBraces_injective,
    FxProperties.serializeClsidProperty_injective⟩

end TympanApo.Clsid
