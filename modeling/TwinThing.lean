import TwinThing.Lib.Runs
import TwinThing.Lib.Mailbox
import TwinThing.Lib.Handles
import TwinThing.Lib.Pool
import TwinThing.Lib.Backlog
import TwinThing.Lib.Protocol
import TwinThing.RGBpwm
import TwinThing.RGBpwmBlink
import TwinThing.RGBpwmCalls
import TwinThing.RGBLEDAgent
import TwinThing.RGBLEDAgentPins
import TwinThing.ConnectionObserver
import TwinThing.ServiceRate
import TwinThing.MainTask
import TwinThing.MainTaskLog
import TwinThing.ServiceLed
import TwinThing.RGBLEDAgentLife
import TwinThing.RGBLEDAgentRestart
import TwinThing.RGBLEDAgentStart
import TwinThing.BlinkTask
import TwinThing.TinyJson
import TwinThing.StateExample
import TwinThing.StateReport
import TwinThing.GPIOInputMgr
import TwinThing.SwitchMgr
import TwinThing.SwitchMgrMerged
import TwinThing.SwitchBoard
import TwinThing.RGBSwitchObs
import TwinThing.StateObserverExample
import TwinThing.LampExclusive
import TwinThing.SwitchLamp
import TwinThing.CommandPool
