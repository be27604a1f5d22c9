import StreamSql.Shape.Choice
import StreamSql.Window.Basic

/-!
# The shape of windows in documents
-/
namespace StreamSql

open Json (Value)
open Shape

variable {π : Type} [Place π]

def Duration.read : π → Reading Duration :=
  record "struct WindowDuration" ["value", "unit"] fun f =>
    Duration.mk <$> f.required "value" int64 <*> f.required "unit" keyword

def Tumbling.read : π → Reading Tumbling :=
  record "struct TumblingWindow" ["size", "retention", "gracePeriod"] fun f =>
    Tumbling.mk <$> f.required "size" Duration.read
      <*> f.optional "retention" Duration.read
      <*> f.optional "gracePeriod" Duration.read

def Hopping.read : π → Reading Hopping :=
  record "struct HoppingWindow" ["size", "advance", "retention", "gracePeriod"] fun f =>
    Hopping.mk <$> f.required "size" Duration.read
      <*> f.required "advance" Duration.read
      <*> f.optional "retention" Duration.read
      <*> f.optional "gracePeriod" Duration.read

def SessionConfig.read : π → Reading SessionConfig :=
  record "struct SessionConfig" ["includeStart", "includeEnd"] fun f =>
    SessionConfig.mk <$> f.optional "includeStart" bool <*> f.optional "includeEnd" bool

def Session.read : π → Reading Session :=
  record "struct SessionWindow" ["inactivityGap", "sessionConfig", "retention", "gracePeriod"]
    fun f =>
      Session.mk <$> f.required "inactivityGap" Duration.read
        <*> f.optional "sessionConfig" SessionConfig.read
        <*> f.optional "retention" Duration.read
        <*> f.optional "gracePeriod" Duration.read

def Window.read : π → Reading Window :=
  choice "WindowSpec" "type"
    [("TUMBLING", fun v => Window.tumbling <$> Tumbling.read v),
      ("HOPPING", fun v => Window.hopping <$> Hopping.read v),
      ("SESSION", fun v => Window.session <$> Session.read v)]

def WindowReference.read : π → Reading WindowReference :=
  record "struct WindowReference" ["name", "boundaries"] fun f =>
    WindowReference.mk <$> f.required "name" string <*> f.optional "boundaries" (list keyword)

def WindowDefinition.read : π → Reading WindowDefinition :=
  record "struct WindowDefinition" ["spec", "boundaries"] fun f =>
    WindowDefinition.mk <$> f.required "spec" Window.read
      <*> f.optional "boundaries" (list keyword)

/-- A window that is spelled out comes before a reference. -/
def WindowBinding.read : π → Reading WindowBinding :=
  union "WindowBinding"
    [fun v => WindowBinding.inline <$> WindowDefinition.read v,
      fun v => WindowBinding.named <$> WindowReference.read v]

end StreamSql
