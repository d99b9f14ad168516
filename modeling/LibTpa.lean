import LibTpa.Cfg.Number
import LibTpa.Cfg.Terminates
import LibTpa.Conn.Agreement
import LibTpa.Conn.ControlRun
import LibTpa.Conn.PawsRun
import LibTpa.Conn.RecoveryRun
import LibTpa.Conn.Reopening
import LibTpa.Dev.OffloadAll
import LibTpa.Fuzz.Cut
import LibTpa.Input.Negotiation
import LibTpa.Input.OptBytes
import LibTpa.Input.Parse
import LibTpa.Input.RstReply
import LibTpa.Neigh.Conserved
import LibTpa.Neigh.NextHop
import LibTpa.Neigh.Subnet
import LibTpa.Port.Demux
import LibTpa.Port.Run
import LibTpa.Port.Search
import LibTpa.Rcv.Cuts
import LibTpa.Rcv.IovRun
import LibTpa.Rcv.Sack
import LibTpa.Snd.Cwnd
import LibTpa.Snd.PacketSize
import LibTpa.Snd.Rtt
import LibTpa.Snd.Sack
import LibTpa.Snd.WriteAtomic
import LibTpa.Sock.Queues
import LibTpa.Trace.Archive
import LibTpa.Trace.Ring
import LibTpa.Worker.FlexFifoSpec
import LibTpa.Worker.LoopAccept
import LibTpa.Worker.OwedAck
import LibTpa.Worker.TimerRun
import LibTpa.Worker.Unsent
