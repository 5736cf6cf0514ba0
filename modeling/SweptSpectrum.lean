import SweptSpectrum.Decimal.Binary
import SweptSpectrum.Decimal.Digits
import SweptSpectrum.Decimal.Text
import SweptSpectrum.Decimal.Read
import SweptSpectrum.Double.Basic
import SweptSpectrum.Double.Log
import SweptSpectrum.Text.CaseTable
import SweptSpectrum.Text.Case
import SweptSpectrum.Text.Blank
import SweptSpectrum.Text.Unsigned
import SweptSpectrum.Text.Json
import SweptSpectrum.Wire.Bytes
import SweptSpectrum.Vrt.Stream
import SweptSpectrum.Vrt.Error
import SweptSpectrum.Vrt.Cursor
import SweptSpectrum.Vrt.Header
import SweptSpectrum.Vrt.Trailer
import SweptSpectrum.Vrt.Samples
import SweptSpectrum.Vrt.Context
import SweptSpectrum.Vrt.Packet
import SweptSpectrum.Vrt.Writer
import SweptSpectrum.Vrt.Reader
import SweptSpectrum.Dsp.Single
import SweptSpectrum.Dsp.Window
import SweptSpectrum.Dsp.Analyzer
import SweptSpectrum.Dsp.Measure
import SweptSpectrum.Sweep.Mode
import SweptSpectrum.Sweep.Error
import SweptSpectrum.Sweep.Profile
import SweptSpectrum.Sweep.Plan
import SweptSpectrum.Sweep.Target
import SweptSpectrum.Sweep.Capture
import SweptSpectrum.Sweep.Report
import SweptSpectrum.Sweep.ReportFile
import SweptSpectrum.Instrument.Descriptor
import SweptSpectrum.Instrument.Control
import SweptSpectrum.Instrument.Simulator
import SweptSpectrum.Instrument.Device
import SweptSpectrum.Backend.Fourier
import SweptSpectrum.Backend.Random
import SweptSpectrum.Backend.Similarity
import SweptSpectrum.Cli.Options
import SweptSpectrum.Cli.Arguments
import SweptSpectrum.Cli.Log
import SweptSpectrum.Cli.Session
import SweptSpectrum.Main
import SweptSpectrum.Proofs.Except
import SweptSpectrum.Proofs.Double.Conversions
import SweptSpectrum.Proofs.Vrt.Decoding
import SweptSpectrum.Proofs.Vrt.Contexts
import SweptSpectrum.Proofs.Vrt.Packets
import SweptSpectrum.Proofs.Sweep.Tiling
import SweptSpectrum.Proofs.Vrt.Streams
import SweptSpectrum.Proofs.Double.Encode
import SweptSpectrum.Proofs.Double.Exact
import SweptSpectrum.Proofs.Double.Rounding
import SweptSpectrum.Proofs.Double.Order
import SweptSpectrum.Proofs.Sweep.Stitching
import SweptSpectrum.Proofs.Vrt.Reencode
import SweptSpectrum.Proofs.Vrt.Framing
import SweptSpectrum.Proofs.Vrt.Payloads
import SweptSpectrum.Proofs.Vrt.Headers
import SweptSpectrum.Proofs.Vrt.Statistics
import SweptSpectrum.Proofs.Sweep.Capturing
import SweptSpectrum.Proofs.Instrument.Commands
import SweptSpectrum.Proofs.Instrument.Sweeping
import SweptSpectrum.Proofs.Dsp.Loading
import SweptSpectrum.Proofs.Dsp.Peak
import SweptSpectrum.Proofs.Dsp.Occupied
import SweptSpectrum.Proofs.Instrument.CommandEffects
import SweptSpectrum.Proofs.Instrument.ByteStream
import SweptSpectrum.Proofs.Sweep.MachineWords
